import Shapewright.Proofs.Java.Reading

/-!
# Methods of Java classes

The methods of a class can be read from its text by one who knows the language alone: outside
string literals, a line in which a parenthesis opens begins a method if modifiers, a type and a
name stand in front of the parenthesis. A constructor has no type there. Keys are written in
literals only, so that none of them looks like a method, whatever line breaks are in it.

Main definitions:

* `withoutLiterals` — code without its string literals.
* `methodName?` — the name of the method that begins in a line.
* `methodNames` — the methods of a class.
* `BeginMethods` — the methods that begin in some lines.

Main result: `methodNames_renderClass` — the methods of a class are a getter and a setter for
each field.
-/

namespace Shapewright.Java

open Text Name

/-! ## Reading -/

mutual

/-- Code without its string literals. -/
def withoutLiterals : List Char → List Char
  | [] => []
  | c :: rest => if c = '"' then behindLiteral rest else c :: withoutLiterals rest

/-- The code behind the literal that a text begins in. -/
def behindLiteral : List Char → List Char
  | [] => []
  | '"' :: rest => withoutLiterals rest
  -- not even a quote ends the literal behind a backslash
  | '\\' :: _ :: rest => behindLiteral rest
  | _ :: rest => behindLiteral rest

end

/-- What may stand in front of the type of a method, or of a constructor. -/
def modifiers : List (List Char) :=
  ["public".toList, "protected".toList, "private".toList, "abstract".toList, "static".toList,
    "final".toList, "synchronized".toList, "native".toList, "strictfp".toList]

/-- The words in a text but for modifiers. -/
def signature (front : List Char) : List (List Char) :=
  (front.splitOn ' ').filter fun word => !word.isEmpty && !modifiers.contains word

/-- The name of a method, if its type stands in front of it. -/
def declared? : List (List Char) → Option String
  | [_, name] => some (String.ofList name)
  | _ => none

/-- The name of the method that begins in a line: behind it, a parenthesis opens. -/
def methodName? (line : List Char) : Option String :=
  (before? '(' line).bind fun (front, _) => declared? (signature front)

/-- The names of the methods in a class, in the order of the text. -/
def methodNames (text : String) : List String :=
  (lines (withoutLiterals text.toList)).filterMap methodName?

/-! ## Literals -/

/-- Up to the first quote everything is code. -/
theorem withoutLiterals_append {cs : List Char} (h : '"' ∉ cs) (rest : List Char) :
    withoutLiterals (cs ++ rest) = cs ++ withoutLiterals rest := by
  induction cs with
  | nil => rfl
  | cons c cs ih =>
    rw [List.mem_cons, not_or] at h
    rw [List.cons_append, withoutLiterals, if_neg (Ne.symm h.1), ih h.2, List.cons_append]

/-- A literal goes on to the quote behind its body, and code follows. -/
theorem behindLiteral_append {cs : List Char} (h : IsLiteralBody cs) (rest : List Char) :
    behindLiteral (cs ++ '"' :: rest) = withoutLiterals rest := by
  induction h with
  | nil => rw [List.nil_append, behindLiteral]
  | plain hc _ ih =>
    rw [List.cons_append, behindLiteral, ih]
    · exact hc.2
    · exact fun _ _ hbackslash => absurd hbackslash hc.1
  | escape c _ ih => rw [List.cons_append, List.cons_append, behindLiteral, ih]

/-- A literal is taken out of what stands around it. -/
theorem withoutLiterals_literal {front body : List Char} (hfront : '"' ∉ front)
    (hbody : IsLiteralBody body) (rest : List Char) :
    withoutLiterals (front ++ '"' :: (body ++ '"' :: rest)) = front ++ withoutLiterals rest := by
  rw [withoutLiterals_append hfront, withoutLiterals, if_pos rfl, behindLiteral_append hbody]

/-- Lines behind which no literal goes on are read one by one: the code of the text is the
code of each line, ended as before. -/
theorem withoutLiterals_endedLines {lines : List (List Char)}
    (h : ∀ line ∈ lines, ∀ rest,
      withoutLiterals (line ++ rest) = withoutLiterals line ++ withoutLiterals rest)
    (rest : List Char) :
    withoutLiterals (endedLines lines ++ rest) =
      endedLines (lines.map withoutLiterals) ++ withoutLiterals rest := by
  induction lines with
  | nil => rfl
  | cons line more ih =>
    obtain ⟨hline, hmore⟩ := List.forall_mem_cons.mp h
    -- the line feed behind a line is no quote, and is kept
    rw [endedLines_cons, List.append_assoc, hline, List.cons_append, withoutLiterals,
      if_neg (by decide), ih hmore, List.map_cons, endedLines_cons, List.append_assoc,
      List.cons_append]

/-! ## Words -/

/-- The characters that mean something to the reader of lines. -/
def marks : List Char := ['"', '\n', '\r', '(']

/-- A text that means nothing to the reader of lines. -/
def IsQuiet (cs : List Char) : Prop := ∀ c ∈ cs, c ∉ marks

instance (cs : List Char) : Decidable (IsQuiet cs) :=
  decidable_of_iff (cs.all (fun c => !marks.contains c) = true) (by simp [IsQuiet])

theorem IsQuiet.append {xs ys : List Char} (hx : IsQuiet xs) (hy : IsQuiet ys) :
    IsQuiet (xs ++ ys) := List.forall_mem_append.mpr ⟨hx, hy⟩

theorem IsQuiet.not_mem {cs : List Char} (h : IsQuiet cs) {c : Char} (hc : c ∈ marks) : c ∉ cs :=
  fun hmem => h c hmem hc

/-- Line breaks are marks, so that a quiet text is one line. -/
theorem IsQuiet.isOneLine {cs : List Char} (h : IsQuiet cs) : IsOneLine cs :=
  ⟨h.not_mem (by decide), h.not_mem (by decide)⟩

/-- A type or a name. -/
structure IsWord (word : List Char) : Prop where
  quiet : IsQuiet word
  unbroken : ' ' ∉ word
  nonempty : word ≠ []
  free : word ∉ modifiers

/-- The characters of names are quiet: a reader of methods sees no parenthesis, quote or line
break in a name. -/
theorem isQuiet_of_isNameChar {cs : List Char} (h : ∀ c ∈ cs, isNameChar c = true) :
    IsQuiet cs := by
  have hmarks : marks.all (fun c => !isNameChar c) = true := by decide
  intro c hc hmark
  have hforeign := List.all_eq_true.mp hmarks c hmark
  rw [h c hc] at hforeign
  exact absurd hforeign (by decide)

/-- All modifiers begin in lower case. -/
theorem not_mem_modifiers {c : Char} (h : c.isLower = false) (rest : List Char) :
    c :: rest ∉ modifiers := by
  have hlower : ∀ word ∈ modifiers, word.head?.any Char.isLower = true := by decide
  exact fun hmem => absurd (h.symm.trans (hlower _ hmem)) (by decide)

/-- The names of classes are words, and no modifiers, which are in lower case. -/
theorem isWord_of_isDeclaredForm {cs : List Char} (h : isDeclaredForm cs = true) : IsWord cs := by
  have hchars := isNameChar_of_isDeclaredForm h
  obtain ⟨c, rest, rfl, hfirst, -⟩ := exists_cons_of_isDeclaredForm h
  -- a capital and an underscore are no lower-case letters
  have hlower : c.isLower = false := by
    rcases hfirst with hupper | rfl
    · rw [Bool.eq_false_iff, ne_eq, isLower_iff]
      rw [isUpper_iff] at hupper
      omega
    · decide
  exact ⟨isQuiet_of_isNameChar hchars, fun hblank => absurd (hchars _ hblank) (by decide),
    List.cons_ne_nil _ _, not_mem_modifiers hlower rest⟩

/-- Words with blanks between them are found again behind a modifier, in order: what is
dropped is the indentation and the modifier. -/
theorem signature_public {words : List (List Char)} (hne : words ≠ [])
    (h : ∀ word ∈ words, IsWord word) :
    signature ("    public ".toList ++ [' '].intercalate words) = words := by
  -- the indentation is blanks with nothing between them
  have hfront : "    public ".toList ++ [' '].intercalate words =
      [' '].intercalate ([[], [], [], [], "public".toList] ++ words) := by
    rw [intercalate_append (List.cons_ne_nil _ _) hne]
    rfl
  have hunbroken : ∀ word ∈ [[], [], [], [], "public".toList] ++ words, ' ' ∉ word :=
    List.forall_mem_append.mpr ⟨by decide, fun word hword => (h word hword).unbroken⟩
  have hwords : ∀ word ∈ words, (!word.isEmpty && !modifiers.contains word) = true := by
    intro word hword
    obtain ⟨-, -, hnonempty, hfree⟩ := h word hword
    rw [Bool.and_eq_true, Bool.not_eq_true', Bool.not_eq_true', ← Bool.not_eq_true,
      ← Bool.not_eq_true, List.isEmpty_iff, List.contains_iff_mem]
    exact ⟨hnonempty, hfree⟩
  rw [signature, hfront, List.splitOn_intercalate ' ' hunbroken (by simp), List.filter_append,
    List.filter_eq_self.mpr hwords]
  rfl

/-! ## Lines -/

/-- The lines can be read one by one, and these are the methods that begin in them. -/
structure BeginMethods (lines : List (List Char)) (names : List String) : Prop where
  /-- No literal goes on behind a line. -/
  apart : ∀ line ∈ lines, ∀ rest,
    withoutLiterals (line ++ rest) = withoutLiterals line ++ withoutLiterals rest
  oneLine : ∀ line ∈ lines, IsOneLine (withoutLiterals line)
  names : lines.filterMap (fun line => methodName? (withoutLiterals line)) = names

namespace BeginMethods

variable {xs ys : List (List Char)} {names others : List String}

theorem nil : BeginMethods [] [] := ⟨nofun, nofun, rfl⟩

/-- The methods in some lines are those in the first of them and those in the others. -/
theorem append (hx : BeginMethods xs names) (hy : BeginMethods ys others) :
    BeginMethods (xs ++ ys) (names ++ others) :=
  ⟨List.forall_mem_append.mpr ⟨hx.apart, hy.apart⟩,
    List.forall_mem_append.mpr ⟨hx.oneLine, hy.oneLine⟩,
    by rw [List.filterMap_append, hx.names, hy.names]⟩

/-- So methods may be gathered from lines that are made item by item. -/
theorem flatMap {α : Type} {items : List α} {f : α → List (List Char)} {g : α → List String}
    (h : ∀ item ∈ items, BeginMethods (f item) (g item)) :
    BeginMethods (items.flatMap f) (items.flatMap g) := by
  induction items with
  | nil => exact nil
  | cons item more ih =>
    obtain ⟨hitem, hmore⟩ := List.forall_mem_cons.mp h
    exact hitem.append (ih hmore)

/-- No method begins in a blank line, so that blocks may be joined by such lines without a
change to the methods that are found. -/
theorem intercalate {blocks : List (List (List Char))} (h : BeginMethods blocks.flatten names) :
    BeginMethods ([[]].intercalate blocks) names := by
  -- the join has nothing but the lines of the blocks and blank ones
  have hline {line : List Char} (hmem : line ∈ [[]].intercalate blocks) :
      line = [] ∨ line ∈ blocks.flatten :=
    (mem_intercalate hmem).imp_left List.mem_singleton.mp
  refine ⟨fun line hmem => ?_, fun line hmem => ?_, ?_⟩
  · rcases hline hmem with rfl | hinside
    · exact fun _ => rfl
    · exact h.apart line hinside
  · rcases hline hmem with rfl | hinside
    · decide
    · exact h.oneLine line hinside
  · rw [filterMap_intercalate rfl, h.names]

/-- A line is read as `code` if leaving out its literals gives that, whatever line stands
behind it: no literal may go on there. -/
theorem of_code {line code : List Char}
    (h : ∀ rest, withoutLiterals (line ++ rest) = code ++ withoutLiterals rest)
    (hcode : IsOneLine code) : BeginMethods [line] (methodName? code).toList := by
  -- with nothing behind the line, its code is all there is
  have hline : withoutLiterals line = code := by
    have hnothing := h []
    rwa [withoutLiterals, List.append_nil, List.append_nil] at hnothing
  refine ⟨?_, ?_, ?_⟩
  · rw [List.forall_mem_singleton, hline]
    exact h
  · rw [List.forall_mem_singleton, hline]
    exact hcode
  · rw [List.filterMap_cons, List.filterMap_nil, hline]
    cases methodName? code <;> rfl

/-- A line in which no literal begins. -/
theorem of_not_mem {line : List Char} (hquote : '"' ∉ line) (hline : IsOneLine line) :
    BeginMethods [line] (methodName? line).toList :=
  of_code (withoutLiterals_append hquote) hline

/-- Where no parenthesis opens, no method begins. -/
theorem of_isQuiet {line : List Char} (h : IsQuiet line) : BeginMethods [line] [] := by
  have hnone : methodName? line = none := by
    rw [methodName?, before?_eq_none (h.not_mem (by decide)), Option.bind_none]
  have hmethods := of_not_mem (h.not_mem (by decide)) h.isOneLine
  rwa [hnone] at hmethods

/-- No method begins in quiet lines, as no parenthesis opens there. -/
theorem of_forall_isQuiet {lines : List (List Char)} (h : ∀ line ∈ lines, IsQuiet line) :
    BeginMethods lines [] := by
  induction lines with
  | nil => exact nil
  | cons line more ih =>
    obtain ⟨hline, hmore⟩ := List.forall_mem_cons.mp h
    exact (of_isQuiet hline).append (ih hmore)

/-- What stands in front of the first parenthesis decides whether a method begins, and which
one. -/
theorem of_front {front back : List Char} (hfront : IsQuiet front) (hback : IsQuiet back) :
    BeginMethods [front ++ '(' :: back] (declared? (signature front)).toList := by
  -- the first parenthesis is the one behind the front
  have hname : methodName? (front ++ '(' :: back) = declared? (signature front) := by
    rw [methodName?, before?_append (hfront.not_mem (by decide)), Option.bind_some]
  rw [← hname]
  have hline : IsOneLine (front ++ '(' :: back) :=
    hfront.isOneLine.append (IsOneLine.append (by decide : IsOneLine ['(']) hback.isOneLine)
  refine of_not_mem ?_ hline
  rw [List.mem_append, List.mem_cons, not_or, not_or]
  exact ⟨hfront.not_mem (by decide), by decide, hback.not_mem (by decide)⟩

/-- A constructor has no type in front of its name. -/
theorem of_constructor {name back : List Char} (hname : IsWord name) (hback : IsQuiet back) :
    BeginMethods ["    public ".toList ++ (name ++ '(' :: back)] [] := by
  have hsignature := signature_public (List.cons_ne_nil name [])
    (List.forall_mem_singleton.mpr hname)
  rw [List.intercalate_singleton] at hsignature
  have hmethods := of_front ((by decide : IsQuiet "    public ".toList).append hname.quiet) hback
  rwa [hsignature, List.append_assoc] at hmethods

/-- A method has a type in front of its name, and two words behind the modifier are what it is
known by. -/
theorem of_method {type name back : List Char} (htype : IsWord type) (hname : IsWord name)
    (hback : IsQuiet back) :
    BeginMethods ["    public ".toList ++ (type ++ ' ' :: (name ++ '(' :: back))]
      [String.ofList name] := by
  -- two words are left of the front when the modifier is taken off
  have hsignature := signature_public (List.cons_ne_nil type [name])
    (List.forall_mem_cons.mpr ⟨htype, List.forall_mem_singleton.mpr hname⟩)
  rw [List.intercalate_cons_cons, List.intercalate_singleton] at hsignature
  have hfront : IsQuiet ("    public ".toList ++ (type ++ [' '] ++ name)) :=
    (by decide : IsQuiet "    public ".toList).append
      ((htype.quiet.append (by decide)).append hname.quiet)
  have hmethods := of_front hfront hback
  rw [hsignature] at hmethods
  simp only [List.append_assoc] at hmethods
  exact hmethods

end BeginMethods

/-! ## Fields -/

/-- A type is one word, with whatever brackets and names are in it. -/
theorem isWord_typeExpr {slot : Slot}
    (h : ∀ name, slot.target? = some name → isDeclaredForm name.toList = true) :
    IsWord (typeExpr slot).toList := by
  induction slot with
  -- the brackets hold no blanks, so that it stays one word
  | list item ih =>
    obtain ⟨hquiet, hunbroken, -, -⟩ := ih h
    rw [typeExpr, String.toList_append, String.toList_append]
    refine ⟨((by decide : IsQuiet "List<".toList).append hquiet).append (by decide), ?_,
      by simp, not_mem_modifiers (by decide) _⟩
    rw [List.mem_append, List.mem_append, not_or, not_or]
    exact ⟨⟨by decide, hunbroken⟩, by decide⟩
  | named name => exact isWord_of_isDeclaredForm (h name rfl)
  | _ => exact ⟨by decide, by decide, by decide, by decide⟩

/-- The name and the type of a field mean nothing to the reader of lines, whatever the key. -/
structure Field.IsPlain (f : Field) : Prop where
  name : ∀ c ∈ f.name.toList, isNameChar c = true
  type : IsWord f.type.toList

namespace Field.IsPlain

variable {f : Field}

/-- The texts of a field mean nothing to the reader of lines: its name, its parameter and the
assignment to it. -/
theorem quiet_name (h : f.IsPlain) : IsQuiet f.name.toList := isQuiet_of_isNameChar h.name

theorem parameter (h : f.IsPlain) : IsQuiet f.parameter.toList := by
  rw [Field.parameter, String.toList_append, String.toList_append]
  exact (h.type.quiet.append (by decide)).append h.quiet_name

theorem assignmentLine (h : f.IsPlain) : IsQuiet f.assignmentLine := by
  rw [Field.assignmentLine]
  simp only [String.toList_append]
  exact ((by decide : IsQuiet "        this.".toList).append
    ((h.quiet_name.append (by decide)).append h.quiet_name)).append (by decide)

/-- No method begins in a declaration: what an annotation says of the key is a literal. -/
theorem declarationLines (h : f.IsPlain) (options : JavaOptions) :
    BeginMethods (f.declarationLines options) [] := by
  have hfield : IsQuiet ("    private " ++ f.parameter ++ ";").toList := by
    rw [String.toList_append, String.toList_append]
    exact ((by decide : IsQuiet "    private ".toList).append h.parameter).append (by decide)
  rw [Field.declarationLines]
  split
  · -- whatever the key is, the code in front of and behind the literal is all that is left
    have hcode (rest : List Char) : withoutLiterals
        (("    @JsonProperty(\"" ++ Text.escapeQuotes f.key ++ "\")").toList ++ rest) =
          "    @JsonProperty()".toList ++ withoutLiterals rest := by
      have hopening : "    @JsonProperty(\"".toList = "    @JsonProperty(".toList ++ ['"'] := by decide
      have hclosing : "\")".toList = ['"', ')'] := by decide
      have hbody : IsLiteralBody (escapeWith ['\\', '"'] f.key.toList) :=
        isLiteralBody_escapeWith (by decide) (by decide) _
      have hcode : "    @JsonProperty()".toList = "    @JsonProperty(".toList ++ [')'] := by decide
      have hfront : '"' ∉ "    @JsonProperty(".toList := by decide
      have hback : '"' ∉ [')'] := by decide
      rw [Text.escapeQuotes, hcode, List.append_assoc, ← withoutLiterals_append hback,
        ← withoutLiterals_literal hfront hbody]
      simp only [String.toList_append, String.toList_ofList, List.append_assoc, hopening, hclosing,
        List.cons_append, List.nil_append]
    have hannotation := BeginMethods.of_code hcode (by decide)
    exact hannotation.append (.of_isQuiet hfield)
  · exact .of_isQuiet hfield

/-- A name that begins as those of accessors do is no modifier, as no modifier begins that
way, and has only characters of names in it. -/
theorem isWord_accessor (h : f.IsPlain) {front : String}
    (hfront : front.toList.all isNameChar = true ∧ front.toList ≠ [] ∧
      ∀ word ∈ modifiers, ¬front.toList <+: word) :
    IsWord (front ++ f.accessorSuffix).toList := by
  obtain ⟨hfront, hne, hfree⟩ := hfront
  have hsuffix : ∀ c ∈ f.accessorSuffix.toList, isNameChar c = true := by
    rw [accessorSuffix, String.toList_ofList]
    exact isNameChar_of_mem_upperFirst h.name
  have hchars := List.forall_mem_append.mpr ⟨List.all_eq_true.mp hfront, hsuffix⟩
  rw [String.toList_append]
  -- a modifier would have to begin with `get` or `set`
  exact ⟨isQuiet_of_isNameChar hchars, fun hblank => absurd (hchars _ hblank) (by decide),
    List.append_ne_nil_of_left_ne_nil hne _,
    fun hmem => hfree _ hmem (List.prefix_append _ _)⟩

/-- The getter begins in its first line, with its type in front of it. -/
theorem getterLines (h : f.IsPlain) : BeginMethods f.getterLines [f.getterName] := by
  have hname : IsWord f.getterName.toList := h.isWord_accessor (by decide)
  have hreturn : IsQuiet ("        return " ++ f.name ++ ";").toList := by
    rw [String.toList_append, String.toList_append]
    exact ((by decide : IsQuiet "        return ".toList).append h.quiet_name).append (by decide)
  -- the return type ends at the blank and the name at the parenthesis
  have hopening : BeginMethods
      [("    public " ++ (f.type ++ " " ++ f.getterName) ++ "() \x7b").toList] [f.getterName] := by
    have hmethod := BeginMethods.of_method h.type hname (by decide : IsQuiet ") \x7b".toList)
    have hblank : " ".toList = [' '] := by decide
    have hparameters : "() \x7b".toList = '(' :: ") \x7b".toList := by decide
    rw [String.ofList_toList] at hmethod
    simp only [String.toList_append, List.append_assoc, List.cons_append, List.nil_append, hblank,
      hparameters]
    exact hmethod
  exact hopening.append ((BeginMethods.of_isQuiet hreturn).append (.of_isQuiet (by decide)))

/-- The setter begins in its first line, too. Its type is `void`, and its one parameter is
behind the parenthesis. -/
theorem setterLines (h : f.IsPlain) : BeginMethods f.setterLines [f.setterName] := by
  have hname : IsWord f.setterName.toList := h.isWord_accessor (by decide)
  have hvoid : IsWord "void".toList := ⟨by decide, by decide, by decide, by decide⟩
  -- here the parenthesis is followed by a parameter, in which there is no other one
  have hopening : BeginMethods
      [("    public void " ++ (f.setterName ++ "(" ++ f.parameter) ++ ") \x7b").toList]
      [f.setterName] := by
    have hmethod := BeginMethods.of_method hvoid hname
      (h.parameter.append (by decide : IsQuiet ") \x7b".toList))
    have hfront : "    public void ".toList = "    public ".toList ++ ("void".toList ++ [' ']) := by
      decide
    have hparenthesis : "(".toList = ['('] := by decide
    rw [String.ofList_toList] at hmethod
    simp only [String.toList_append, List.append_assoc, List.cons_append, List.nil_append, hfront,
      hparenthesis]
    exact hmethod
  exact hopening.append
    ((BeginMethods.of_isQuiet h.assignmentLine).append (.of_isQuiet (by decide)))

end Field.IsPlain

/-! ## Classes -/

section Class

variable {className : String} {fields : List Field}

/-- A constructor is no method, as there is no type in front of its name, and nothing else in
it has a parenthesis. -/
theorem beginMethods_constructorLines (hname : isDeclaredForm className.toList = true)
    (hfields : ∀ f ∈ fields, f.IsPlain) :
    BeginMethods (constructorLines className fields).flatten [] := by
  -- the word in front of the parenthesis is the class name, and what is in front of it a
  -- modifier
  have hword := isWord_of_isDeclaredForm hname
  have hparameters : IsQuiet (", ".intercalate (fields.map Field.parameter)).toList :=
    forall_mem_toList_intercalate (by decide : IsQuiet ", ".toList)
      (List.forall_mem_map.mpr fun f hf => (hfields f hf).parameter)
  have hbrace : BeginMethods ["    \x7d".toList] [] := .of_isQuiet (by decide)
  have hdefault : BeginMethods [("    public " ++ className ++ "() \x7b").toList] [] := by
    have hconstructor := BeginMethods.of_constructor hword (by decide : IsQuiet ") \x7b".toList)
    have hparameters : "() \x7b".toList = '(' :: ") \x7b".toList := by decide
    simp only [String.toList_append, List.append_assoc, hparameters]
    exact hconstructor
  -- the parameters have blanks, but they stand behind the parenthesis
  have hopening : BeginMethods [("    public " ++ (className ++ "(" ++
      ", ".intercalate (fields.map Field.parameter)) ++ ") \x7b").toList] [] := by
    have hconstructor := BeginMethods.of_constructor hword
      (hparameters.append (by decide : IsQuiet ") \x7b".toList))
    have hparenthesis : "(".toList = ['('] := by decide
    simp only [String.toList_append, List.append_assoc, List.cons_append, List.nil_append,
      hparenthesis]
    exact hconstructor
  have hassignments : BeginMethods (fields.map Field.assignmentLine) [] :=
    .of_forall_isQuiet (List.forall_mem_map.mpr fun f hf => (hfields f hf).assignmentLine)
  exact (hdefault.append hbrace).append ((hopening.append (hassignments.append hbrace)).append .nil)

/-- Of the members of a class, the accessors are its methods: no method begins in fields and
constructors, nor in the comment of a class that has none. -/
theorem beginMethods_memberLines {options : JavaOptions} (hlombok : options.useLombok = false)
    (haccessors : options.includeGetterSetter = true)
    (hname : isDeclaredForm className.toList = true) (hfields : ∀ f ∈ fields, f.IsPlain) :
    BeginMethods (memberLines options className fields).flatten
      (fields.flatMap fun f => [f.getterName, f.setterName]) := by
  -- only the last of the four parts has methods in it
  have hcomment : BeginMethods
      (if fields.isEmpty then ["    // Empty class".toList] else []) [] := by
    split
    · exact .of_isQuiet (by decide)
    · exact .nil
  have hdeclarations : BeginMethods (fields.flatMap (Field.declarationLines options)) [] := by
    have hall := BeginMethods.flatMap fun f hf => (hfields f hf).declarationLines options
    rwa [List.flatMap_eq_nil_iff.mpr fun _ _ => rfl] at hall
  have hconstructors : BeginMethods (if !options.useLombok && options.includeConstructor &&
      !fields.isEmpty then constructorLines className fields else []).flatten [] := by
    split
    · exact beginMethods_constructorLines hname hfields
    · exact .nil
  have hboth : BeginMethods (fields.flatMap fun f => [f.getterLines, f.setterLines]).flatten
      (fields.flatMap fun f => [f.getterName, f.setterName]) := by
    rw [List.flatten_eq_flatMap, List.flatMap_assoc]
    exact .flatMap fun f hf => (hfields f hf).getterLines.append
      ((hfields f hf).setterLines.append .nil)
  have hwritten : (!options.useLombok && options.includeGetterSetter) = true := by
    rw [hlombok, haccessors]
    rfl
  rw [memberLines, List.flatten_cons, List.flatten_append, if_pos hwritten]
  exact (hcomment.append hdeclarations).append (hconstructors.append hboth)

end Class

/-- **A class has a getter and a setter for each field, and no other methods.** They are read from
the printed text: a method is a line with a parenthesis outside of literals, and a type and a name
in front of it. Constructors have no type there, and keys stand in literals only. -/
theorem methodNames_renderClass {options : JavaOptions} (hlombok : options.useLombok = false)
    (haccessors : options.includeGetterSetter = true) {modifier : String}
    (hmodifier : IsQuiet modifier.toList) {d : Declaration}
    (hname : isDeclaredForm d.name.toList = true)
    (hfields : ∀ f ∈ d.slots.map Field.ofMember, f.IsPlain) :
    methodNames (renderClass options modifier d) =
      (d.slots.map Field.ofMember).flatMap fun f => [f.getterName, f.setterName] := by
  have hannotations : annotationLines options (d.slots.map Field.ofMember) = [] := by
    rw [annotationLines, if_neg (by rw [hlombok]; decide)]
  have hclass : IsQuiet (modifier.toList ++ ("class " ++ d.name ++ " \x7b").toList) := by
    rw [String.toList_append, String.toList_append]
    exact hmodifier.append (((by decide : IsQuiet "class ".toList).append
      (isWord_of_isDeclaredForm hname).quiet).append (by decide))
  have hbody : BeginMethods (bodyLines options modifier d)
      ((d.slots.map Field.ofMember).flatMap fun f => [f.getterName, f.setterName]) := by
    rw [bodyLines, openingLines, hannotations]
    exact (BeginMethods.of_isQuiet hclass).append
      (beginMethods_memberLines hlombok haccessors hname hfields).intercalate
  -- the last line is the closing brace
  have hbrace : (lines (withoutLiterals ['\x7d'])).filterMap methodName? = [] := by decide
  rw [methodNames, toList_renderClass, withoutLiterals_endedLines hbody.apart,
    lines_endedLines_append (List.forall_mem_map.mpr hbody.oneLine), List.filterMap_append,
    List.filterMap_map, hbrace, List.append_nil]
  exact hbody.names

end Shapewright.Java
