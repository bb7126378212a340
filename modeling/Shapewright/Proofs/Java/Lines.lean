import Shapewright.Dialect.Java
import Shapewright.Generate
import Shapewright.Proofs.Plan.NameForms
import Shapewright.Proofs.Text.Marks

/-!
# Java classes by lines

A class is the lines that open it, the lines of its members with a blank line between any two
members, and a closing brace. Every line of a member is indented and ends visibly, and none of
them looks like the first line of a nested class: what follows `public` is the name of a type,
and no type is called by a lower-case letter.

Main definitions:

* `IsMemberLine` — what the lines of members have in common.
* `openingLines`, `memberLines` — the lines of a class.
* `IsOneLined` — the texts that go into a class hold no line breaks.

Main results:

* `toList_renderClass` — the text of a class is its lines.
* `isMemberLine_of_mem_memberLines` — the lines of its members.
* `isOneLined_of_mem_types` — the types of a plan.
-/

namespace Shapewright.Java

open Text Name

/-! ## Lines of members -/

/-- What the first line of a nested class begins with. -/
def nestedMarker : List Char := "    public static class ".toList

/-- A line of a member, which cannot be taken for one that opens a nested class. -/
structure IsMemberLine (line : List Char) : Prop where
  oneLine  : IsOneLine line
  indented : "    ".toList <+: line
  inside   : ¬nestedMarker <+: line
  visible  : ∃ c, line.getLast? = some c ∧ isSpace c = false

/-- What begins otherwise goes on otherwise: whether a marker stands in front is decided by as
many characters as it has. -/
theorem not_prefix_append {marker front : List Char}
    (h : ¬marker <+: front ∧ ¬front <+: marker) (rest : List Char) :
    ¬marker <+: front ++ rest := fun hbegin =>
  (List.prefix_or_prefix_of_prefix hbegin (List.prefix_append front rest)).elim h.1 h.2

/-- A line is one of a member if its beginning is indented and its end is visible, and if it
is not taken for the first line of a nested class. -/
theorem isMemberLine_of {front middle last : String}
    (hfront : IsOneLine front.toList ∧ "    ".toList <+: front.toList)
    (hmiddle : IsOneLine middle.toList)
    (hinside : ¬nestedMarker <+: front.toList ++ (middle.toList ++ last.toList))
    (hlast : IsOneLine last.toList ∧ ∃ c, last.toList.getLast? = some c ∧ isSpace c = false) :
    IsMemberLine (front ++ middle ++ last).toList := by
  -- the three texts are one list of characters, in which only the ends are looked at
  have hlist : (front ++ middle ++ last).toList =
      front.toList ++ (middle.toList ++ last.toList) := by
    rw [String.toList_append, String.toList_append, List.append_assoc]
  rw [hlist]
  refine ⟨hfront.1.append (hmiddle.append hlast.1), hfront.2.trans (List.prefix_append _ _),
    hinside, ?_⟩
  obtain ⟨c, hc, hvisible⟩ := hlast.2
  exact ⟨c, by rw [List.getLast?_append, List.getLast?_append, hc]; rfl, hvisible⟩

/-- A line that begins otherwise than a nested class. -/
theorem isMemberLine_of_front {front middle last : String}
    (hfront : IsOneLine front.toList ∧ "    ".toList <+: front.toList)
    (hother : ¬nestedMarker <+: front.toList ∧ ¬front.toList <+: nestedMarker)
    (hmiddle : IsOneLine middle.toList)
    (hlast : IsOneLine last.toList ∧ ∃ c, last.toList.getLast? = some c ∧ isSpace c = false) :
    IsMemberLine (front ++ middle ++ last).toList :=
  isMemberLine_of hfront hmiddle (not_prefix_append hother _) hlast

/-- Behind `public`, a line goes on with a type, and `static` is none. -/
theorem isMemberLine_of_public {middle last : String} (hmiddle : IsOneLine middle.toList)
    (hhead : ∃ c rest, middle.toList = c :: rest ∧ c ≠ 's')
    (hlast : IsOneLine last.toList ∧ ∃ c, last.toList.getLast? = some c ∧ isSpace c = false) :
    IsMemberLine ("    public " ++ middle ++ last).toList := by
  have hmarker : nestedMarker = "    public ".toList ++ 's' :: "tatic class ".toList := by decide
  refine isMemberLine_of (by decide) hmiddle ?_ hlast
  obtain ⟨c, rest, hcons, hc⟩ := hhead
  rw [hmarker, hcons, List.cons_append, List.prefix_append_right_inj, List.cons_prefix_cons]
  exact fun hbegin => hc hbegin.1.symm

/-- The brace that closes a member. -/
theorem isMemberLine_brace : IsMemberLine "    \x7d".toList :=
  ⟨by decide, by decide, by decide, _, rfl, by decide⟩

/-! ## Fields -/

/-- The texts of a field hold no line breaks, its key if it is written, and its type is
no keyword. -/
structure Field.IsOneLined (options : JavaOptions) (f : Field) : Prop where
  key  : options.useJsonProperty = true → IsOneLine f.key.toList
  name : ∀ c ∈ f.name.toList, isNameChar c = true
  type : IsOneLine f.type.toList
  head : ∃ c rest, f.type.toList = c :: rest ∧ c ≠ 's'

/-- Names hold no line breaks. -/
theorem isOneLine_of_isNameChar {cs : List Char} (h : ∀ c ∈ cs, isNameChar c = true) :
    IsOneLine cs :=
  ⟨fun hmem => absurd (h _ hmem) (by decide), fun hmem => absurd (h _ hmem) (by decide)⟩

/-- Marks in a key add no line breaks. -/
theorem isOneLine_escapeQuotes {key : String} (h : IsOneLine key.toList) :
    IsOneLine (Text.escapeQuotes key).toList := by
  rw [Text.escapeQuotes, String.toList_ofList]
  exact (isOneLine_escapeWith_iff key.toList).mpr h

namespace Field

/-- The lines that declare a field. The key is written only if it differs from the name. -/
def declarationLines (options : JavaOptions) (f : Field) : List (List Char) :=
  (if options.useJsonProperty && f.name != f.key then
      [("    @JsonProperty(\"" ++ Text.escapeQuotes f.key ++ "\")").toList]
    else []) ++
    [("    private " ++ f.parameter ++ ";").toList]

/-- The line that a constructor and a setter assign a field in. -/
def assignmentLine (f : Field) : List Char :=
  ("        this." ++ (f.name ++ " = " ++ f.name) ++ ";").toList

/-- The lines of a getter. -/
def getterLines (f : Field) : List (List Char) :=
  [("    public " ++ (f.type ++ " " ++ f.getterName) ++ "() \x7b").toList,
    ("        return " ++ f.name ++ ";").toList, "    \x7d".toList]

/-- The lines of a setter. -/
def setterLines (f : Field) : List (List Char) :=
  [("    public void " ++ (f.setterName ++ "(" ++ f.parameter) ++ ") \x7b").toList,
    f.assignmentLine, "    \x7d".toList]

/-- The text of a declaration is its lines, ended. The same is shown below of the other texts
of a field: the assignment, the getter and the setter. -/
theorem toList_declaration (options : JavaOptions) (f : Field) :
    (f.declaration options).toList = endedLines (f.declarationLines options) := by
  unfold declaration declarationLines parameter
  split <;>
  · simp only [String.toList_append, endedLines, List.flatMap_append, List.flatMap_singleton,
      List.flatMap_nil, List.append_assoc]
    rfl

theorem toList_assignment (f : Field) : f.assignment.toList = endedLines [f.assignmentLine] := by
  unfold assignment assignmentLine
  simp only [String.toList_append, endedLines, List.flatMap_singleton, List.append_assoc]
  rfl

theorem toList_getter (f : Field) : f.getter.toList = endedLines f.getterLines := by
  unfold getter getterLines
  simp only [String.toList_append, endedLines, List.flatMap_cons, List.flatMap_nil,
    List.append_assoc]
  rfl

theorem toList_setter (f : Field) : f.setter.toList = endedLines f.setterLines := by
  unfold setter setterLines
  rw [String.toList_append, String.toList_append, toList_assignment]
  simp only [String.toList_append, endedLines, List.flatMap_cons, List.flatMap_nil,
    List.append_assoc]
  rfl

variable {options : JavaOptions} {f : Field}

/-- The texts that go into the lines of a field hold no line breaks: its name, its parameter
and what its accessors are called after. -/
theorem IsOneLined.oneLine_name (h : f.IsOneLined options) : IsOneLine f.name.toList :=
  isOneLine_of_isNameChar h.name

theorem IsOneLined.parameter (h : f.IsOneLined options) : IsOneLine f.parameter.toList := by
  rw [Field.parameter, String.toList_append, String.toList_append]
  exact (h.type.append (by decide)).append h.oneLine_name

theorem IsOneLined.accessorSuffix (h : f.IsOneLined options) :
    IsOneLine f.accessorSuffix.toList := by
  rw [Field.accessorSuffix, String.toList_ofList]
  exact isOneLine_of_isNameChar (isNameChar_of_mem_upperFirst h.name)

/-- What is taken for a line of a member is one. It begins with the blanks of its place, and
what is in it holds no line break. -/
theorem IsOneLined.assignmentLine (h : f.IsOneLined options) : IsMemberLine f.assignmentLine := by
  refine isMemberLine_of_front (by decide) (by decide) ?_ ⟨by decide, _, rfl, by decide⟩
  rw [String.toList_append, String.toList_append]
  exact (h.oneLine_name.append (by decide)).append h.oneLine_name

/-- A declaration may have an annotation in front, with the key in it; the key is one line if
it is written at all. -/
theorem IsOneLined.declarationLines (h : f.IsOneLined options) :
    ∀ line ∈ f.declarationLines options, IsMemberLine line := by
  have hfield : IsMemberLine ("    private " ++ f.parameter ++ ";").toList :=
    isMemberLine_of_front (by decide) (by decide) h.parameter ⟨by decide, _, rfl, by decide⟩
  unfold Field.declarationLines
  split
  · next hkey =>
    -- the key is only written where the option asks for it
    have hwanted : options.useJsonProperty = true := (Bool.and_eq_true_iff.mp hkey).1
    exact List.forall_mem_cons.mpr ⟨isMemberLine_of_front (by decide) (by decide)
      (isOneLine_escapeQuotes (h.key hwanted)) ⟨by decide, _, rfl, by decide⟩,
      List.forall_mem_singleton.mpr hfield⟩
  · exact List.forall_mem_singleton.mpr hfield

theorem IsOneLined.getterLines (h : f.IsOneLined options) :
    ∀ line ∈ f.getterLines, IsMemberLine line := by
  have hopening : IsMemberLine
      ("    public " ++ (f.type ++ " " ++ f.getterName) ++ "() \x7b").toList := by
    -- behind `public` stands the type, which does not begin as `static` does
    obtain ⟨c, rest, hcons, hc⟩ := h.head
    refine isMemberLine_of_public ?_ ⟨c, rest ++ (" " ++ f.getterName).toList, ?_, hc⟩
      ⟨by decide, _, rfl, by decide⟩
    · rw [getterName, String.toList_append, String.toList_append, String.toList_append]
      exact (h.type.append (by decide)).append (IsOneLine.append (by decide) h.accessorSuffix)
    · rw [String.append_assoc, String.toList_append, hcons, List.cons_append]
  have hreturn : IsMemberLine ("        return " ++ f.name ++ ";").toList :=
    isMemberLine_of_front (by decide) (by decide) h.oneLine_name ⟨by decide, _, rfl, by decide⟩
  exact List.forall_mem_cons.mpr ⟨hopening, List.forall_mem_cons.mpr ⟨hreturn,
    List.forall_mem_singleton.mpr isMemberLine_brace⟩⟩

theorem IsOneLined.setterLines (h : f.IsOneLined options) :
    ∀ line ∈ f.setterLines, IsMemberLine line := by
  have hopening : IsMemberLine
      ("    public void " ++ (f.setterName ++ "(" ++ f.parameter) ++ ") \x7b").toList := by
    refine isMemberLine_of_front (by decide) (by decide) ?_ ⟨by decide, _, rfl, by decide⟩
    rw [setterName, String.toList_append, String.toList_append, String.toList_append]
    exact ((IsOneLine.append (by decide) h.accessorSuffix).append (by decide)).append h.parameter
  exact List.forall_mem_cons.mpr ⟨hopening, List.forall_mem_cons.mpr ⟨h.assignmentLine,
    List.forall_mem_singleton.mpr isMemberLine_brace⟩⟩

end Field

/-! ## Members -/

/-- The lines of both constructors. -/
def constructorLines (className : String) (fields : List Field) : List (List (List Char)) :=
  [[("    public " ++ className ++ "() \x7b").toList, "    \x7d".toList],
    ("    public " ++ (className ++ "(" ++ ", ".intercalate (fields.map Field.parameter)) ++
      ") \x7b").toList :: (fields.map Field.assignmentLine ++ ["    \x7d".toList])]

/-- The lines of each member. -/
def memberLines (options : JavaOptions) (className : String) (fields : List Field) :
    List (List (List Char)) :=
  let declarations :=
    (if fields.isEmpty then ["    // Empty class".toList] else []) ++
      fields.flatMap (Field.declarationLines options)
  let constructors :=
    if !options.useLombok && options.includeConstructor && !fields.isEmpty then
      constructorLines className fields
    else []
  let accessors :=
    if !options.useLombok && options.includeGetterSetter then
      fields.flatMap fun f => [f.getterLines, f.setterLines]
    else []
  declarations :: (constructors ++ accessors)

/-- Lines that are gathered from many places are ended one by one. -/
theorem endedLines_flatMap {α : Type} (f : α → List (List Char)) (xs : List α) :
    endedLines (xs.flatMap f) = xs.flatMap fun x => endedLines (f x) := List.flatMap_assoc

/-- The constructors as lines: an empty one, and one with a parameter for each field. -/
theorem toList_constructors (className : String) (fields : List Field) :
    (constructors className fields).map String.toList =
      (constructorLines className fields).map endedLines := by
  -- the assignments are joined into one text, a line for each field
  have hassignments : (String.join (fields.map Field.assignment)).toList =
      endedLines (fields.map Field.assignmentLine) := by
    rw [String.toList_join, List.flatMap_map, endedLines, List.flatMap_map]
    refine List.flatMap_congr fun f _ => ?_
    rw [f.toList_assignment, endedLines, List.flatMap_singleton]
  unfold constructors constructorLines
  simp only [List.map_cons, List.map_nil, String.toList_append, hassignments, endedLines_cons,
    endedLines_append, List.append_assoc]
  rfl

/-- All members of a class as lines, in the order in which they are printed: the fields, the
constructors, and a getter and a setter for each field. -/
theorem toList_members (options : JavaOptions) (className : String) (fields : List Field) :
    (members options className fields).map String.toList =
      (memberLines options className fields).map endedLines := by
  have hdeclarations : (String.join (fields.map (Field.declaration options))).toList =
      endedLines (fields.flatMap (Field.declarationLines options)) := by
    rw [String.toList_join, List.flatMap_map, endedLines_flatMap]
    exact List.flatMap_congr fun f _ => f.toList_declaration options
  have haccessors : (fields.flatMap fun f => [f.getter, f.setter]).map String.toList =
      (fields.flatMap fun f => [f.getterLines, f.setterLines]).map endedLines := by
    rw [List.map_flatMap, List.map_flatMap]
    refine List.flatMap_congr fun f _ => ?_
    simp only [List.map_cons, List.map_nil, f.toList_getter, f.toList_setter]
  unfold members memberLines
  simp only [List.map_cons, List.map_append, String.toList_append, endedLines_append,
    hdeclarations]
  -- the constructors and the accessors stand under an option each, which both sides test alike
  congr 1
  · split <;> rfl
  · congr 1
    · split
      · exact toList_constructors className fields
      · rfl
    · split
      · exact haccessors
      · rfl

/-- A type is not called by a lower-case letter. -/
theorem exists_cons_ne_of_isDeclaredForm {cs : List Char} (h : isDeclaredForm cs = true) :
    ∃ c rest, cs = c :: rest ∧ c ≠ 's' := by
  obtain ⟨c, rest, rfl, hfirst, -⟩ := exists_cons_of_isDeclaredForm h
  refine ⟨c, rest, rfl, ?_⟩
  rintro rfl
  exact absurd hfirst (by decide)

/-- A join of single lines is one line, if there is no line break between them. -/
theorem isOneLine_intercalate {separator : String} (hseparator : IsOneLine separator.toList)
    {texts : List String} (h : ∀ text ∈ texts, IsOneLine text.toList) :
    IsOneLine (separator.intercalate texts).toList := by
  -- a character of the join is one of the separator or of one of the texts
  have hother {c : Char} (hseparator : c ∉ separator.toList)
      (htexts : ∀ text ∈ texts, c ∉ text.toList) : c ∉ (separator.intercalate texts).toList :=
    fun hc => forall_mem_toList_intercalate (fun d hd (heq : d = c) => hseparator (heq ▸ hd))
      (fun text htext d hd heq => htexts text htext (heq ▸ hd)) c hc rfl
  exact ⟨hother hseparator.1 fun text htext => (h text htext).1,
    hother hseparator.2 fun text htext => (h text htext).2⟩

/-- The lines of constructors are lines of members. The one that begins with the class name
must not look like a nested class, and does not, as that name begins in upper case. -/
theorem isMemberLine_of_mem_constructorLines {options : JavaOptions} {className : String}
    (hname : isDeclaredForm className.toList = true) {fields : List Field}
    (hfields : ∀ f ∈ fields, f.IsOneLined options) :
    ∀ block ∈ constructorLines className fields,
      block ≠ [] ∧ ∀ line ∈ block, IsMemberLine line := by
  have honeLine := isOneLine_of_isNameChar (isNameChar_of_isDeclaredForm hname)
  -- a line that began with `public static` would be taken for the head of a nested class, and
  -- the name that stands behind `public` here is not one that begins with an `s`
  obtain ⟨c, rest, hcons, hc⟩ := exists_cons_ne_of_isDeclaredForm hname
  have hdefault : IsMemberLine ("    public " ++ className ++ "() \x7b").toList :=
    isMemberLine_of_public honeLine ⟨c, rest, hcons, hc⟩ ⟨by decide, _, rfl, by decide⟩
  have hparameters : IsOneLine (", ".intercalate (fields.map Field.parameter)).toList :=
    isOneLine_intercalate (by decide) (List.forall_mem_map.mpr fun f hf => (hfields f hf).parameter)
  -- the parameters are on the same line as the name, however many there are
  have hopening : IsMemberLine ("    public " ++
      (className ++ "(" ++ ", ".intercalate (fields.map Field.parameter)) ++ ") \x7b").toList := by
    refine isMemberLine_of_public ?_ ⟨c, rest ++ ("(" ++ ", ".intercalate
      (fields.map Field.parameter)).toList, ?_, hc⟩ ⟨by decide, _, rfl, by decide⟩
    · rw [String.toList_append, String.toList_append]
      exact (honeLine.append (by decide)).append hparameters
    · rw [String.append_assoc, String.toList_append, hcons, List.cons_append]
  have hassignments : ∀ line ∈ fields.map Field.assignmentLine, IsMemberLine line :=
    List.forall_mem_map.mpr fun f hf => (hfields f hf).assignmentLine
  refine List.forall_mem_cons.mpr ⟨⟨List.cons_ne_nil _ _, ?_⟩,
    List.forall_mem_singleton.mpr ⟨List.cons_ne_nil _ _, ?_⟩⟩
  · exact List.forall_mem_cons.mpr ⟨hdefault, List.forall_mem_singleton.mpr isMemberLine_brace⟩
  · exact List.forall_mem_cons.mpr ⟨hopening, List.forall_mem_append.mpr
      ⟨hassignments, List.forall_mem_singleton.mpr isMemberLine_brace⟩⟩

/-- No member is without lines, and each of its lines is that of a member, whatever is
generated besides the fields. -/
theorem isMemberLine_of_mem_memberLines {options : JavaOptions} {className : String}
    (hname : isDeclaredForm className.toList = true) {fields : List Field}
    (hfields : ∀ f ∈ fields, f.IsOneLined options) :
    ∀ block ∈ memberLines options className fields,
      block ≠ [] ∧ ∀ line ∈ block, IsMemberLine line := by
  -- a class has a comment in place of its declarations if it has no fields
  have hdeclarations : ∀ line ∈ (if fields.isEmpty then ["    // Empty class".toList] else []) ++
      fields.flatMap (Field.declarationLines options), IsMemberLine line := by
    intro line hline
    rcases List.mem_append.mp hline with hempty | hfield
    · split at hempty
      · rw [List.mem_singleton.mp hempty]
        exact ⟨by decide, by decide, by decide, _, rfl, by decide⟩
      · exact absurd hempty List.not_mem_nil
    · obtain ⟨f, hf, hline⟩ := List.mem_flatMap.mp hfield
      exact (hfields f hf).declarationLines line hline
  have hnonempty : (if fields.isEmpty then ["    // Empty class".toList] else []) ++
      fields.flatMap (Field.declarationLines options) ≠ [] := by
    cases fields with
    | nil => exact List.cons_ne_nil _ _
    | cons f more =>
      rw [List.flatMap_cons, Field.declarationLines]
      simp
  -- two blocks for each field, the getter and the setter
  have haccessors : ∀ block ∈ fields.flatMap fun f => [f.getterLines, f.setterLines],
      block ≠ [] ∧ ∀ line ∈ block, IsMemberLine line := by
    intro block hblock
    obtain ⟨f, hf, hblock⟩ := List.mem_flatMap.mp hblock
    rcases List.mem_cons.mp hblock with rfl | hsetter
    · exact ⟨List.cons_ne_nil _ _, (hfields f hf).getterLines⟩
    · rw [List.mem_singleton.mp hsetter]
      exact ⟨List.cons_ne_nil _ _, (hfields f hf).setterLines⟩
  unfold memberLines
  refine List.forall_mem_cons.mpr ⟨⟨hnonempty, hdeclarations⟩, List.forall_mem_append.mpr ⟨?_, ?_⟩⟩
  · split
    · exact isMemberLine_of_mem_constructorLines hname hfields
    · exact fun _ hblock => absurd hblock List.not_mem_nil
  · split
    · exact haccessors
    · exact fun _ hblock => absurd hblock List.not_mem_nil

/-! ## Classes -/

/-- The lines in front of a class that say what is generated for it. -/
def annotationLines (options : JavaOptions) (fields : List Field) : List (List Char) :=
  if options.useLombok then
    ["@Data".toList, "@NoArgsConstructor".toList] ++
      (if fields.isEmpty then [] else ["@AllArgsConstructor".toList])
  else []

/-- The lines of the annotations, and the one that begins the class. -/
def openingLines (options : JavaOptions) (modifier : String) (d : Declaration) :
    List (List Char) :=
  annotationLines options (d.slots.map Field.ofMember) ++
    [modifier.toList ++ ("class " ++ d.name ++ " \x7b").toList]

/-- The lines of a class in front of its closing brace. -/
def bodyLines (options : JavaOptions) (modifier : String) (d : Declaration) : List (List Char) :=
  openingLines options modifier d ++
    [[]].intercalate (memberLines options d.name (d.slots.map Field.ofMember))

/-- The annotations stand in lines of their own. -/
theorem toList_annotations (options : JavaOptions) (fields : List Field) :
    (annotations options fields).toList = endedLines (annotationLines options fields) := by
  unfold annotations annotationLines
  split
  · split <;> decide
  · rfl

/-- **The text of a class is its lines**, of which the closing brace is the last and is not
ended. -/
theorem toList_renderClass (options : JavaOptions) (modifier : String) (d : Declaration) :
    (renderClass options modifier d).toList =
      endedLines (bodyLines options modifier d) ++ ['\x7d'] := by
  -- members are joined by a line feed, so that there is a blank line between two of them
  have hmembers : ("\n".intercalate (members options d.name (d.slots.map Field.ofMember))).toList =
      endedLines ([[]].intercalate (memberLines options d.name (d.slots.map Field.ofMember))) := by
    rw [String.toList_intercalate, toList_members, endedLines_intercalate]
    rfl
  rw [renderClass, bodyLines, openingLines, endedLines_append, endedLines_append, ← hmembers,
    ← toList_annotations]
  simp only [String.toList_append, endedLines_cons, List.append_assoc]
  rfl

/-! ## The types of a plan -/

/-- A type in Java holds no line breaks, and does not begin like a modifier. -/
theorem isOneLine_typeExpr {slot : Slot}
    (h : ∀ name, slot.target? = some name → isDeclaredForm name.toList = true) :
    IsOneLine (typeExpr slot).toList ∧ ∃ c rest, (typeExpr slot).toList = c :: rest ∧ c ≠ 's' := by
  induction slot with
  -- a list type begins in upper case, whatever its items are
  | list item ih =>
    rw [typeExpr, String.toList_append, String.toList_append]
    exact ⟨((by decide : IsOneLine "List<".toList).append (ih h).1).append (by decide),
      'L', _, rfl, by decide⟩
  | named name =>
    have hname := h name rfl
    exact ⟨isOneLine_of_isNameChar (isNameChar_of_isDeclaredForm hname),
      exists_cons_ne_of_isDeclaredForm hname⟩
  | _ => exact ⟨by decide, _, _, rfl, by decide⟩

/-- The identifier of a field is made of the characters of names, be it suffixed or not. -/
theorem isNameChar_fieldName (key : String) :
    ∀ c ∈ (fieldName key).toList, isNameChar c = true := by
  have hsuffix : "_".toList.all isNameChar = true := by decide
  rw [fieldName, suffixIfReserved]
  split
  · rw [String.toList_append]
    exact List.forall_mem_append.mpr ⟨isNameChar_camelCase key, List.all_eq_true.mp hsuffix⟩
  · exact isNameChar_camelCase key

/-- The texts that go into the class hold no line breaks. -/
structure IsOneLined (options : JavaOptions) (d : Declaration) : Prop where
  name   : isDeclaredForm d.name.toList = true
  fields : ∀ f ∈ d.slots.map Field.ofMember, f.IsOneLined options

/-- The classes of a plan hold no line breaks in their texts, if the keys that are written in
annotations hold none. -/
theorem isOneLined_of_mem_types {s : Shape} (hs : s.KeysDistinct) {rootName : String}
    {options : JavaOptions}
    (hkeys : options.useJsonProperty = true →
      ∀ members ∈ s.objects, ∀ field ∈ members, IsOneLine field.1.toList) :
    ∀ d ∈ (planFor .java rootName s).types, IsOneLined options d := by
  intro d hd
  have hr : Java.reserved.Escapable := Reserved.Admitted.escapable (Or.inr ⟨.java, rfl⟩)
  obtain ⟨hname, htargets⟩ := Plan.isDeclarable_of_mem_types hr hs d hd
  refine ⟨hname.form, List.forall_mem_map.mpr fun member hmember => ?_⟩
  have hkey : options.useJsonProperty = true → IsOneLine member.1.toList := by
    intro hwanted
    obtain ⟨field, hfield, rfl⟩ := List.mem_map.mp hmember
    exact hkeys hwanted d.fields (Plan.mem_objects_of_mem_types hd hfield) field hfield
  obtain ⟨htype, hhead⟩ := isOneLine_typeExpr fun name htarget =>
    (htargets member hmember name htarget).form
  have hfieldName := isNameChar_fieldName member.1
  rw [Field.ofMember]
  -- how the name and the type are spelled does not matter any more
  generalize fieldName member.1 = fieldName at hfieldName ⊢
  generalize typeExpr member.2 = type at htype hhead ⊢
  exact ⟨hkey, hfieldName, htype, hhead⟩

end Shapewright.Java
