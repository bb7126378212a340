import Shapewright.Proofs.Java.Reading

/-!
# Layouts of Java classes

The classes that are written, with modifiers or without, at the margin or indented, are blocks
of lines that are read as the classes without modifiers. So classes that follow each other are
read back from their text, and so are classes nested in another one.

Main definitions:

* `classLines` — the lines of a class.
* `importLines` — the lines of the imports.

Main results:

* `bareClass_classLines` — a class is read without its modifiers.
* `readClasses_stack` — classes that follow each other.
* `readNested_stack` — classes nested in another one.
-/

namespace Shapewright.Java

open Text Name

/-! ## Classes as blocks -/

/-- The lines of a class. -/
def classLines (options : JavaOptions) (modifier : String) (d : Declaration) : List (List Char) :=
  bodyLines options modifier d ++ [['\x7d']]

/-- A line of a nested class. Blank lines are left blank. -/
def indentLine (line : List Char) : List Char := if line.isEmpty then [] else "    ".toList ++ line

/-- A line begins no class if it has none of the beginnings. -/
theorem beginsClass_eq_false {line : List Char} (h : ∀ marker ∈ classMarkers, ¬marker <+: line) :
    beginsClass line = false :=
  List.any_eq_false.mpr fun marker hmarker hfront =>
    h marker hmarker (List.isPrefixOf_iff_prefix.mp hfront)

/-- A line that has one of the beginnings begins a class, whatever it goes on with. -/
theorem beginsClass_append {marker : List Char} (h : marker ∈ classMarkers) (rest : List Char) :
    beginsClass (marker ++ rest) = true :=
  List.any_eq_true.mpr
    ⟨marker, h, List.isPrefixOf_iff_prefix.mpr (List.prefix_append marker rest)⟩

/-- A line of a member is inside its class: it is indented, and does not open a nested class. -/
theorem isInside_of_isMemberLine {line : List Char} (h : IsMemberLine line) : IsInside line := by
  obtain ⟨rest, hrest⟩ := h.indented
  have hmargin : ∀ marker ∈ ["class ".toList, "public class ".toList], ¬marker <+: line := by
    rw [← hrest]
    exact fun marker hmarker => not_prefix_append (by revert marker; decide) rest
  refine ⟨by rw [← hrest]; exact List.cons_ne_nil _ _, beginsClass_eq_false ?_⟩
  exact List.forall_mem_cons.mpr ⟨hmargin _ (by decide), List.forall_mem_cons.mpr
    ⟨hmargin _ (by decide), List.forall_mem_singleton.mpr h.inside⟩⟩

/-- Inside a nested class a line is too far to the right for the first line of a class. -/
theorem isInside_indentLine {line : List Char} (h : IsMemberLine line) :
    IsInside (indentLine line) := by
  obtain ⟨rest, rfl⟩ := h.indented
  have hindented : indentLine ("    ".toList ++ rest) = "        ".toList ++ rest := rfl
  rw [hindented]
  exact ⟨List.cons_ne_nil _ _, beginsClass_eq_false fun marker hmarker =>
    not_prefix_append (by revert marker; decide) rest⟩

section Classes

variable {options : JavaOptions} {modifier : String} {d : Declaration}

/-- The members of a class without line breaks in its texts are made of such lines. -/
theorem IsOneLined.isMemberLine (h : IsOneLined options d) :
    ∀ member ∈ memberLines options d.name (d.slots.map Field.ofMember),
      member ≠ [] ∧ ∀ line ∈ member, IsMemberLine line :=
  isMemberLine_of_mem_memberLines h.name h.fields

/-- A blank line between blocks breaks no line. -/
theorem oneLine_intercalate {blocks : List (List (List Char))}
    (h : ∀ block ∈ blocks, ∀ line ∈ block, IsOneLine line) :
    ∀ line ∈ [[]].intercalate blocks, IsOneLine line := by
  intro line hline
  rcases mem_intercalate hline with hblank | hmem
  · rw [List.mem_singleton.mp hblank]
    decide
  · obtain ⟨block, hblock, hline⟩ := List.mem_flatten.mp hmem
    exact h block hblock line hline

/-- The lines of a class in front of its closing brace hold no line breaks: those of the
members do not, and names and annotations have none. -/
theorem IsOneLined.oneLine_bodyLines (h : IsOneLined options d)
    (hmodifier : IsOneLine modifier.toList) :
    ∀ line ∈ bodyLines options modifier d, IsOneLine line := by
  have hname : IsOneLine ("class " ++ d.name ++ " \x7b").toList := by
    rw [String.toList_append, String.toList_append]
    exact (IsOneLine.append (by decide)
      (isOneLine_of_isNameChar (isNameChar_of_isDeclaredForm h.name))).append (by decide)
  have hannotations : ∀ line ∈ annotationLines options (d.slots.map Field.ofMember),
      IsOneLine line := by
    unfold annotationLines
    split
    · split <;> decide
    · exact fun _ hline => absurd hline List.not_mem_nil
  exact List.forall_mem_append.mpr ⟨List.forall_mem_append.mpr ⟨hannotations,
    List.forall_mem_singleton.mpr (hmodifier.append hname)⟩,
    oneLine_intercalate fun member hmember line hline =>
      ((h.isMemberLine member hmember).2 line hline).oneLine⟩

/-- What is taken for a line of the class is one line. -/
theorem IsOneLined.oneLine_classLines (h : IsOneLined options d)
    (hmodifier : IsOneLine modifier.toList) :
    ∀ line ∈ classLines options modifier d, IsOneLine line :=
  List.forall_mem_append.mpr
    ⟨h.oneLine_bodyLines hmodifier, List.forall_mem_singleton.mpr (by decide)⟩

/-- There is no blank line in front of a class, nor in its annotations. -/
theorem nil_not_mem_openingLines (options : JavaOptions) (modifier : String) (d : Declaration) :
    [] ∉ openingLines options modifier d := by
  unfold openingLines annotationLines
  rw [List.mem_append, not_or, List.mem_singleton, String.append_assoc, String.toList_append]
  constructor
  · split
    · split <;> decide
    · exact List.not_mem_nil
  · exact fun hnil => absurd (List.append_eq_nil_iff.mp hnil.symm).2 (List.cons_ne_nil _ _)

/-- A class begins in the line behind its annotations. -/
theorem beginsClass_openingLine (hmodifier : modifier ∈ ["", "public "]) (name : String) :
    beginsClass (modifier.toList ++ ("class " ++ name ++ " \x7b").toList) = true := by
  have hmarker : ∀ modifier ∈ ["", "public "],
      modifier.toList ++ "class ".toList ∈ classMarkers := by
    decide
  rw [String.append_assoc, String.toList_append, ← List.append_assoc]
  exact beginsClass_append (hmarker modifier hmodifier) _

/-- A class begins in the last of its opening lines. -/
theorem any_beginsClass_openingLines (hmodifier : modifier ∈ ["", "public "]) :
    (openingLines options modifier d).any beginsClass = true := by
  rw [openingLines, List.any_append, List.any_cons, beginsClass_openingLine hmodifier,
    Bool.true_or, Bool.or_true]

/-- So the lines of its members are inside the class. -/
theorem IsOneLined.isInside (h : IsOneLined options d) :
    ∀ member ∈ memberLines options d.name (d.slots.map Field.ofMember),
      ∀ line ∈ member, IsInside line := fun member hmember line hline =>
  isInside_of_isMemberLine ((h.isMemberLine member hmember).2 line hline)

/-- The root class in front of what is nested in it. -/
theorem IsOneLined.isBlock_bodyLines (h : IsOneLined options d)
    (hmodifier : modifier ∈ ["", "public "]) : IsBlock true (bodyLines options modifier d) := by
  have hnone : ∀ line ∈ ([] : List (List Char)), IsInside line := fun _ hline =>
    absurd hline List.not_mem_nil
  have hblock := isBlock_of_members (nil_not_mem_openingLines options modifier d)
    (any_beginsClass_openingLines hmodifier) (List.cons_ne_nil _ _) h.isInside hnone
  rwa [List.append_nil] at hblock

/-- A class at the margin is a block of its own: one class begins in it, in its first
paragraph. -/
theorem IsOneLined.isBlock_classLines (h : IsOneLined options d)
    (hmodifier : modifier ∈ ["", "public "]) : IsBlock true (classLines options modifier d) :=
  isBlock_of_members (nil_not_mem_openingLines options modifier d)
    (any_beginsClass_openingLines hmodifier) (List.cons_ne_nil _ _) h.isInside
    (List.forall_mem_singleton.mpr (by unfold IsInside; decide))

/-- Only blank lines are not indented. -/
theorem indentLine_of_ne_nil {line : List Char} (h : line ≠ []) :
    indentLine line = "    ".toList ++ line :=
  if_neg (by rwa [List.isEmpty_iff])

/-- A class inside another one is a block as well. Indenting its lines keeps the blank ones
blank, and the one that begins it still does, as the first of a nested class. -/
theorem IsOneLined.isBlock_nested (h : IsOneLined options d) :
    IsBlock true ((classLines options "public static " d).map indentLine) := by
  -- indenting leaves blank lines blank, so a line that is blank now was blank before
  have hopening : [] ∉ (openingLines options "public static " d).map indentLine := by
    rintro hnil
    obtain ⟨line, hline, hindented⟩ := List.mem_map.mp hnil
    have hne : line ≠ [] := fun heq => nil_not_mem_openingLines options _ d (heq ▸ hline)
    rw [indentLine_of_ne_nil hne] at hindented
    exact absurd hindented (List.cons_ne_nil _ _)
  -- behind the indentation the line still begins with a marker, which now ends in `static`
  have hbegins : ((openingLines options "public static " d).map indentLine).any beginsClass =
      true := by
    have hline : indentLine ("public static ".toList ++ ("class " ++ d.name ++ " \x7b").toList) =
        nestedMarker ++ (d.name ++ " \x7b").toList := by
      rw [String.append_assoc, String.toList_append]
      rfl
    rw [openingLines, List.map_append, List.map_singleton, hline, List.any_append, List.any_cons,
      beginsClass_append (by decide), Bool.true_or, Bool.or_true]
  have hmembers : ∀ member ∈ (memberLines options d.name (d.slots.map Field.ofMember)).map
      (List.map indentLine), ∀ line ∈ member, IsInside line :=
    List.forall_mem_map.mpr fun member hmember => List.forall_mem_map.mpr fun line hline =>
      isInside_indentLine ((h.isMemberLine member hmember).2 line hline)
  have hclosing : ∀ line ∈ [indentLine ['\x7d']], IsInside line :=
    List.forall_mem_singleton.mpr (by unfold IsInside; decide)
  have hblock := isBlock_of_members hopening hbegins (List.cons_ne_nil _ _) hmembers hclosing
  -- the blank lines between the members are the ones that are not indented
  have hblank : [indentLine []] = [[]] := rfl
  rw [classLines, bodyLines, List.map_append, List.map_append, map_intercalate, List.map_singleton,
    List.map_singleton, hblank]
  exact hblock

end Classes

/-! ## Modifiers and indentation -/

/-- All three modifiers are taken off. -/
theorem withoutModifier_append {modifier : String}
    (h : modifier ∈ ["", "public ", "public static "]) (name : String) :
    withoutModifier (modifier.toList ++ ("class " ++ name ++ " \x7b").toList) =
      ("class " ++ name ++ " \x7b").toList := by
  rw [String.append_assoc, String.toList_append]
  simp only [List.mem_cons, List.not_mem_nil, or_false] at h
  rcases h with rfl | rfl | rfl <;> rfl

/-- Annotations are left as they are: the modifier is taken off the first line that is none. -/
theorem bareLines_append {front : List (List Char)} (h : ∀ line ∈ front, line.head? = some '@')
    (rest : List (List Char)) : bareLines (front ++ rest) = front ++ bareLines rest := by
  induction front with
  | nil => rfl
  | cons line more ih =>
    obtain ⟨hline, hmore⟩ := List.forall_mem_cons.mp h
    rw [List.cons_append, bareLines, if_pos hline, ih hmore, List.cons_append]

/-- Without its modifier a class is the same in all layouts: its annotations stand in front of
the modifier and its members behind the name. -/
theorem bareLines_classLines (options : JavaOptions) {modifier : String}
    (h : modifier ∈ ["", "public ", "public static "]) (d : Declaration) :
    bareLines (classLines options modifier d) = classLines options "" d := by
  have hannotations : ∀ line ∈ annotationLines options (d.slots.map Field.ofMember),
      line.head? = some '@' := by
    unfold annotationLines
    split
    · split <;> decide
    · exact fun _ hline => absurd hline List.not_mem_nil
  -- the walk over the lines stops at the one that declares the class, as it is no annotation
  have hhead : (modifier.toList ++ ("class " ++ d.name ++ " \x7b").toList).head? ≠ some '@' := by
    rw [String.append_assoc, String.toList_append]
    simp only [List.mem_cons, List.not_mem_nil, or_false] at h
    rcases h with rfl | rfl | rfl <;> exact nofun
  have hclass (rest : List (List Char)) :
      bareLines ((modifier.toList ++ ("class " ++ d.name ++ " \x7b").toList) :: rest) =
        ("class " ++ d.name ++ " \x7b").toList :: rest := by
    rw [bareLines, if_neg hhead, withoutModifier_append h]
  unfold classLines bodyLines openingLines
  simp only [List.append_assoc, List.cons_append]
  rw [bareLines_append hannotations, hclass]
  rfl

/-- The lines of a class, put together, are its text. -/
theorem toList_textOf (options : JavaOptions) (modifier : String) (d : Declaration) :
    textOf (classLines options modifier d) = renderClass options modifier d := by
  rw [textOf, classLines, intercalate_concat, ← toList_renderClass, String.ofList_toList]

/-- A class without its modifiers, whichever it has. -/
theorem bareClass_classLines (options : JavaOptions) {modifier : String}
    (h : modifier ∈ ["", "public ", "public static "]) (d : Declaration) :
    bareClass (classLines options modifier d) = renderClass options "" d := by
  rw [bareClass, bareLines_classLines options h, toList_textOf]

/-- Indenting loses nothing: what was put in front of a line is taken off again, and a blank
line never had anything put there. -/
theorem outdentLine_indentLine (line : List Char) : outdentLine (indentLine line) = line := by
  cases line with
  | nil => rfl
  | cons c rest =>
    rw [indentLine_of_ne_nil (List.cons_ne_nil c rest), outdentLine]
    have hfront : ("    ".toList ++ c :: rest).dropPrefix? "    ".toList = some (c :: rest) :=
      List.dropPrefix?_eq_some_iff.mpr ⟨_, rfl, beq_self_eq_true _⟩
    rw [hfront, Option.getD_some]

/-- The text of a class, cut into lines, is its lines. -/
theorem lines_renderClass {options : JavaOptions} {modifier : String} {d : Declaration}
    (h : IsOneLined options d) (hmodifier : IsOneLine modifier.toList) :
    lines (renderClass options modifier d).toList = classLines options modifier d := by
  rw [toList_renderClass, lines_endedLines_append (h.oneLine_bodyLines hmodifier),
    lines_of_isOneLine (by decide) (List.cons_ne_nil _ _), classLines]

/-- The text of an indented class, ended by a line feed, is its lines with the indentation in
front of each that is not blank. -/
theorem toList_indent {options : JavaOptions} {modifier : String} {d : Declaration}
    (h : IsOneLined options d) (hmodifier : IsOneLine modifier.toList) :
    (indent (renderClass options modifier d)).toList ++ ['\n'] =
      endedLines ((classLines options modifier d).map indentLine) := by
  -- the two definitions of an indented line, one on texts and one on characters
  have hline (line : List Char) :
      (if line.isEmpty then "" else "    " ++ String.ofList line).toList = indentLine line := by
    unfold indentLine
    split
    · rfl
    · rw [String.toList_append]
      exact congrArg ("    ".toList ++ ·) String.toList_ofList
  -- the last line has no line feed behind it, so there must be one
  have hne : (classLines options modifier d).map indentLine ≠ [] := by
    rw [classLines, List.map_append]
    exact List.append_ne_nil_of_right_ne_nil _ (List.cons_ne_nil _ _)
  rw [indent, lines_renderClass h hmodifier, String.toList_intercalate, List.map_map,
    ← intercalate_append_newline hne]
  exact congrArg (fun ls => ['\n'].intercalate ls ++ ['\n'])
    (List.map_congr_left fun line _ => hline line)

/-! ## Imports -/

/-- The lines of the imports, which depend on the options alone. -/
def importLines (options : JavaOptions) : List (List Char) :=
  ["import java.util.List;".toList] ++
    (if options.useJsonProperty then
      ["import com.fasterxml.jackson.annotation.JsonProperty;".toList]
    else []) ++
    if options.useLombok then
      ["import lombok.Data;".toList, "import lombok.NoArgsConstructor;".toList,
        "import lombok.AllArgsConstructor;".toList]
    else []

/-- The header is the lines of the imports and a blank line, under whatever options. -/
theorem toList_header (options : JavaOptions) :
    (header options).toList = endedLines (importLines options) ++ ['\n'] := by
  -- every import is a line of its own; two of them are there under an option each
  have hlist : "import java.util.List;\n".toList =
      endedLines ["import java.util.List;".toList] := by
    rw [String.toList_ofList, String.toList_ofList]
    rfl
  have hproperty : (if options.useJsonProperty then
        "import com.fasterxml.jackson.annotation.JsonProperty;\n" else "").toList =
      endedLines (if options.useJsonProperty then
        ["import com.fasterxml.jackson.annotation.JsonProperty;".toList] else []) := by
    split
    · rw [String.toList_ofList, String.toList_ofList]
      rfl
    · rfl
  have hlombok : (if options.useLombok then
        "import lombok.Data;\nimport lombok.NoArgsConstructor;\nimport lombok.AllArgsConstructor;\n"
        else "").toList =
      endedLines (if options.useLombok then
        ["import lombok.Data;".toList, "import lombok.NoArgsConstructor;".toList,
          "import lombok.AllArgsConstructor;".toList] else []) := by
    split
    · rw [String.toList_ofList, String.toList_ofList, String.toList_ofList, String.toList_ofList]
      rfl
    · rfl
  unfold header importLines
  rw [String.toList_append, String.toList_append, String.toList_append, endedLines_append,
    endedLines_append, hlist, hproperty, hlombok]
  rfl

/-- The imports are one block, in which no class begins. -/
theorem isBlock_importLines (options : JavaOptions) : IsBlock false (importLines options) := by
  -- one paragraph is enough, since there is no blank line between two imports
  refine ⟨[importLines options], ⟨?_, importLines options, [], rfl, ?_,
    fun _ hmem => absurd hmem List.not_mem_nil⟩, List.intercalate_singleton⟩
  · rw [List.forall_mem_singleton]
    unfold importLines
    split <;> split <;> decide
  · unfold importLines
    split <;> split <;> decide

/-- Each import is one line. -/
theorem isOneLine_of_mem_importLines (options : JavaOptions) :
    ∀ line ∈ importLines options, IsOneLine line := by
  unfold importLines
  split <;> split <;> decide

/-- Blocks behind the imports, with blank lines between all of them. -/
theorem endedLines_importLines (options : JavaOptions) {blocks : List (List (List Char))}
    (hne : blocks ≠ []) :
    endedLines ([[]].intercalate (importLines options :: blocks)) =
      (header options).toList ++ endedLines ([[]].intercalate blocks) := by
  rw [List.intercalate_cons_of_ne_nil hne, endedLines_append, endedLines_append, toList_header]
  rfl

/-! ## Classes that follow each other -/

section Stack

variable {options : JavaOptions}

/-- A class ends in its closing brace. -/
theorem isOpenEnded_renderClass (options : JavaOptions) (modifier : String) (d : Declaration) :
    IsOpenEnded (renderClass options modifier d) := by
  refine ⟨'\x7d', ?_, by decide⟩
  rw [toList_renderClass, List.getLast?_concat]

/-- The text of classes that follow each other is the lines of the imports and of each class,
with blank lines between these blocks, all of them ended. -/
theorem toList_stack {classes : List (String × Declaration)} (hne : classes ≠ []) :
    (stack (header options) (classes.map fun c => renderClass options c.1 c.2) "\n\n").toList =
      endedLines ([[]].intercalate
        (importLines options :: classes.map fun c => classLines options c.1 c.2)) := by
  have hblocks : (classes.map fun c => renderClass options c.1 c.2) ≠ [] :=
    mt List.map_eq_nil_iff.mp hne
  have hlines : (classes.map fun c => classLines options c.1 c.2) ≠ [] :=
    mt List.map_eq_nil_iff.mp hne
  -- the text of a class lacks the line feed behind its brace, which the list of lines has
  have hended : ((classes.map fun c => renderClass options c.1 c.2).map String.toList).map
        (fun text => text ++ ['\n']) =
      (classes.map fun c => classLines options c.1 c.2).map endedLines := by
    simp only [List.map_map]
    refine List.map_congr_left fun c _ => ?_
    show (renderClass options c.1 c.2).toList ++ ['\n'] = endedLines (classLines options c.1 c.2)
    rw [toList_renderClass, classLines, endedLines_append, List.append_assoc]
    rfl
  have hfeeds : "\n\n".toList = ['\n', '\n'] := rfl
  have hfeed : "\n".toList = ['\n'] := rfl
  rw [stack_eq _ _ hblocks (List.forall_mem_map.mpr fun c _ => isOpenEnded_renderClass _ _ _),
    String.toList_append, String.toList_append, String.toList_intercalate, hfeeds, hfeed,
    List.append_assoc, intercalate_blank (mt List.map_eq_nil_iff.mp hblocks), hended,
    ← endedLines_intercalate, endedLines_importLines options hlines]

/-- **Classes that follow each other are read back.** Each is a block in the first paragraph
of which a class begins, and blank lines inside a class begin none, so the cuts are where the
classes meet. -/
theorem readClasses_stack {classes : List (String × Declaration)} (hne : classes ≠ [])
    (h : ∀ c ∈ classes, c.1 ∈ ["", "public "] ∧ IsOneLined options c.2) :
    readClasses
        (stack (header options) (classes.map fun c => renderClass options c.1 c.2) "\n\n") =
      ⟨textOf (importLines options), classes.map fun c => renderClass options "" c.2⟩ := by
  have hmodifier : ∀ modifier ∈ ["", "public "], IsOneLine modifier.toList ∧
      modifier ∈ ["", "public ", "public static "] := by
    decide
  -- cutting a text into lines gives back the lines it was put together from, if each is one
  -- line
  have honeLine : ∀ line ∈ [[]].intercalate
      (importLines options :: classes.map fun c => classLines options c.1 c.2), IsOneLine line :=
    oneLine_intercalate (List.forall_mem_cons.mpr ⟨isOneLine_of_mem_importLines options,
      List.forall_mem_map.mpr fun c hc =>
        (h c hc).2.oneLine_classLines (hmodifier c.1 (h c hc).1).1⟩)
  -- a class begins once in each block, so that the cuts are where the blocks meet
  have hcut := cut_intercalate (isBlock_importLines options)
    (List.forall_mem_map.mpr fun c hc => (h c hc).2.isBlock_classLines (h c hc).1)
  rw [readClasses, toList_stack hne, lines_endedLines honeLine, hcut]
  refine congrArg (Source.mk _) ?_
  rw [List.map_map]
  exact List.map_congr_left fun c hc =>
    bareClass_classLines options (hmodifier c.1 (h c hc).1).2 c.2

end Stack

/-! ## Classes nested in the last one -/

section Nested

variable {options : JavaOptions}

/-- What is in front of the closing brace ends visibly. -/
theorem IsOneLined.exists_getLast? {d : Declaration} (h : IsOneLined options d)
    (modifier : String) :
    ∃ line ∈ (bodyLines options modifier d).getLast?, ∃ c ∈ line.getLast?, isSpace c = false := by
  have hne : memberLines options d.name (d.slots.map Field.ofMember) ≠ [] := List.cons_ne_nil _ _
  obtain ⟨line, hline, member, hmember, hmem⟩ := exists_getLast?_intercalate hne
    fun member hmember => (h.isMemberLine member hmember).1
  refine ⟨line, ?_, ((h.isMemberLine member hmember).2 line hmem).visible⟩
  rw [bodyLines, List.getLast?_append, hline]
  rfl

/-- The text of nested classes is the lines of the outer one in front of its closing brace,
the indented lines of the others behind blank lines, and the brace. -/
theorem toList_stack_nestInside {root : Declaration} {nested : List Declaration}
    (hroot : IsOneLined options root) (hnested : ∀ d ∈ nested, IsOneLined options d) :
    (stack (header options) [nestInside (renderClass options "public " root)
        (nested.map fun d => indent (renderClass options "public static " d))] "").toList =
      endedLines ([[]].intercalate (importLines options :: bodyLines options "public " root ::
        nested.map fun d => (classLines options "public static " d).map indentLine) ++
          [['\x7d']]) := by
  -- the inner classes are joined by line feeds before they are put inside the outer one
  have hinner : (nested.map fun d => indent (renderClass options "public static " d)).map
        (fun text => text.toList ++ ['\n']) =
      (nested.map fun d => (classLines options "public static " d).map indentLine).map
        endedLines := by
    rw [List.map_map, List.map_map]
    exact List.map_congr_left fun d hd => toList_indent (hnested d hd) (by decide)
  have hinside := toList_nestInside (toList_renderClass options "public " root)
    (hroot.exists_getLast? "public ") hinner
  -- the outer class still ends in its own brace
  have hopen : IsOpenEnded (nestInside (renderClass options "public " root)
      (nested.map fun d => indent (renderClass options "public static " d))) :=
    ⟨'\x7d', by rw [hinside, List.getLast?_concat], by decide⟩
  rw [stack_eq _ _ (List.cons_ne_nil _ _) (List.forall_mem_singleton.mpr hopen),
    String.intercalate_singleton, String.toList_append, String.toList_append, hinside,
    endedLines_append, endedLines_importLines options (List.cons_ne_nil _ _)]
  simp only [List.append_assoc]
  rfl

/-- **Nested classes are read back**, in the order of the text and the outer one last. Their
lines are indented, and their modifier is `public static`; the reader takes off both, and
gives the outer class its brace back. -/
theorem readNested_stack {root : Declaration} {nested : List Declaration}
    (hroot : IsOneLined options root) (hnested : ∀ d ∈ nested, IsOneLined options d) :
    readNested (stack (header options) [nestInside (renderClass options "public " root)
        (nested.map fun d => indent (renderClass options "public static " d))] "") =
      ⟨textOf (importLines options), (nested ++ [root]).map (renderClass options "")⟩ := by
  -- all lines are single ones: the imports, those of the outer class, and the indented ones
  have honeLine : ∀ line ∈ [[]].intercalate (importLines options ::
      bodyLines options "public " root ::
        nested.map fun d => (classLines options "public static " d).map indentLine) ++ [['\x7d']],
      IsOneLine line := by
    refine List.forall_mem_append.mpr ⟨oneLine_intercalate ?_,
      List.forall_mem_singleton.mpr (by decide)⟩
    refine List.forall_mem_cons.mpr ⟨isOneLine_of_mem_importLines options, List.forall_mem_cons.mpr
      ⟨hroot.oneLine_bodyLines (by decide), List.forall_mem_map.mpr fun d hd =>
        List.forall_mem_map.mpr fun line hline => ?_⟩⟩
    have hplain := (hnested d hd).oneLine_classLines (by decide) line hline
    unfold indentLine
    split
    · decide
    · exact IsOneLine.append (by decide) hplain
  -- the outer class comes first, without its brace, and has none of the others inside it yet
  have hblocks : ∀ block ∈ bodyLines options "public " root ::
      nested.map fun d => (classLines options "public static " d).map indentLine,
      IsBlock true block :=
    List.forall_mem_cons.mpr ⟨hroot.isBlock_bodyLines (by decide),
      List.forall_mem_map.mpr fun d hd => (hnested d hd).isBlock_nested⟩
  have hcut := cut_intercalate (isBlock_importLines options) hblocks
  -- taking the indentation and the modifier off is undone class by class
  have hclass (d : Declaration) : bareClass
      (((classLines options "public static " d).map indentLine).map outdentLine) =
        renderClass options "" d := by
    have houtdent : ((classLines options "public static " d).map indentLine).map outdentLine =
        classLines options "public static " d := by
      rw [List.map_map]
      exact List.map_id'' outdentLine_indentLine _
    rw [houtdent, bareClass_classLines options (by decide)]
  rw [readNested, toList_stack_nestInside hroot hnested, lines_endedLines honeLine]
  rw [List.dropLast_concat, List.getLast?_concat, hcut]
  -- the outer class was read first and is put last, with its brace given back
  show Source.mk _ (_ ++ [bareClass (classLines options "public " root)]) = _
  rw [bareClass_classLines options (by decide), List.map_map, List.map_append, List.map_singleton]
  refine congrArg (Source.mk _) (congrArg (· ++ _) ?_)
  exact List.map_congr_left fun d _ => hclass d

end Nested

end Shapewright.Java
