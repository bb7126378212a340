import Shapewright.Proofs.Plan.Spelling
import Shapewright.Proofs.Rust.Lines
import Shapewright.Proofs.Text.Escapes

/-!
# Reading lines of Rust

A reader takes a line for what its beginning says, and the rest of it up to
where it has to end. That it reads every line as the one that was written comes
down to names: a type that is declared under a name in the form of declared names
cannot be mistaken for a kind or a list, and no identifier contains the colon
behind it.

Main definitions:

* `readType` — the slot that a type expression stands for.
* `readLine?` — the line that a text is.
* `Line.Sound` — the names in a line are such as a plan has.

Main results:

* `readType_typeExpr`, `readLine?_text` — what is written is read.
* `textOf_injective` — the text of sound lines determines them.
-/

namespace Shapewright.Rust

open Text Name Plan

/-! ## Type expressions -/

/-- The types of the kinds without parts. -/
def scalars : List (String × Slot) :=
  [("Option<()>", .null), ("String", .string), ("i64", .integer), ("f64", .number),
    ("bool", .boolean), ("serde_json::Value", .any)]

/-- The slot that a type expression stands for. -/
def readType (cs : List Char) : Slot :=
  match _h : between? "Vec<".toList ">".toList cs with
  | some item => .list (readType item)
  | none => (scalars.lookup (String.ofList cs)).getD (.named (String.ofList cs))
termination_by cs.length
decreasing_by
  rw [between?_eq_some_iff.mp _h, List.length_append, List.length_append]
  have hclosing : ">".toList.length = 1 := rfl
  omega

def spelling : Spelling reserved where
  opening := "Vec<".toList
  closing := ">".toList
  words := scalars
  foreign := ⟨'<', by decide, by decide⟩
  isWord := by decide
  nodup := by decide

/-- Types are read by the spelling of the target: brackets are taken off from the outside, and
what is left is a word or a name. -/
theorem readType_eq_read (cs : List Char) : readType cs = spelling.read cs := by
  -- each bracket that is taken off is one step of the recursion
  induction cs using readType.induct with
  | case1 cs item h ih =>
    have hitem : cs = spelling.opening ++ (item ++ spelling.closing) := between?_eq_some_iff.mp h
    rw [readType]
    split
    · next other hother =>
      obtain rfl := Option.some.inj (hother.symm.trans h)
      rw [ih, hitem, spelling.read_list]
    · next hnone => exact absurd (hnone.symm.trans h) (by simp)
  | case2 cs h =>
    -- what has no brackets around it is a name for both readers
    have hread := spelling.read_of_between?_eq_none (s := String.ofList cs)
      (by rw [String.toList_ofList]; exact h)
    rw [String.toList_ofList] at hread
    rw [readType, hread]
    split
    · next hsome => exact absurd (hsome.symm.trans h) (by simp)
    · rfl

/-- A list type is the type of its items between the two brackets of the spelling. -/
theorem toList_typeExpr_list (item : Slot) :
    (typeExpr (.list item)).toList =
      spelling.opening ++ ((typeExpr item).toList ++ spelling.closing) := by
  show ("Vec<" ++ typeExpr item ++ ">").toList = _
  rw [String.toList_append, String.toList_append, List.append_assoc]
  rfl

/-- Every kind has a word of its own, so nothing is lost in a type. -/
theorem writes_typeExpr : spelling.Writes typeExpr id where
  list_eq := toList_typeExpr_list
  named_eq _ := rfl
  word_mem := by decide
  collapse_kind := by decide
  collapse_list _ := rfl
  collapse_named _ := rfl

/-- A type expression is read as the slot it was written for, as long as that
refers to a name that a type may be declared under, if to any. -/
theorem readType_typeExpr {slot : Slot}
    (h : ∀ name, slot.target? = some name → IsDeclarable reserved name) :
    readType (typeExpr slot).toList = slot := by
  rw [readType_eq_read, writes_typeExpr.read_eq h, id]

/-! ## Lines -/

def readOpening? (cs : List Char) : Option Line :=
  (between? "pub struct ".toList " \x7b".toList cs).map fun name => .opening (String.ofList name)

def readRename? (cs : List Char) : Option Line :=
  (between? "    #[serde(rename = \"".toList "\")]".toList cs).bind fun escaped =>
    (unescape escaped).map fun key => .rename (String.ofList key)

/-- The identifier ends at the first colon. -/
def readField? (cs : List Char) : Option Line :=
  (between? "    pub ".toList ",".toList cs).map fun inside =>
    .field (String.ofList (inside.takeWhile (· != ':')))
      (readType ((inside.dropWhile (· != ':')).drop 2))

/-- The lines that are always the same. -/
def fixedLines : List Line := [.imports, .blank, .derive, .nothing, .closing]

/-- The line that a text is. -/
def readLine? (cs : List Char) : Option Line :=
  readOpening? cs <|> readRename? cs <|> readField? cs <|>
    fixedLines.find? fun line => line.text.toList == cs

/-- The names in the line are such as a plan has. -/
def Line.Sound : Line → Prop
  | .opening name => IsDeclarable reserved name
  | .field identifier slot => (∀ c ∈ identifier.toList, isNameChar c = true ∨ c = '#') ∧
      ∀ name, slot.target? = some name → IsDeclarable reserved name
  | _ => True

/-- The three kinds of lines that tell something are read back: a type's name up to the brace, a
key up to the quote behind it, escapes and all, and a field by its identifier and its type. -/
theorem readOpening?_text (name : String) :
    readOpening? (Line.opening name).text.toList = some (.opening name) := by
  have hbetween : between? "pub struct ".toList " \x7b".toList (Line.opening name).text.toList =
      some name.toList := by
    rw [between?_eq_some_iff, text_opening, String.toList_append, String.toList_append,
      List.append_assoc]
  rw [readOpening?, hbetween, Option.map_some, String.ofList_toList]

theorem readRename?_text (key : String) :
    readRename? (Line.rename key).text.toList = some (.rename key) := by
  have hbetween : between? "    #[serde(rename = \"".toList "\")]".toList
      (Line.rename key).text.toList = some (escapeAscii key).toList := by
    rw [between?_eq_some_iff, text_rename, String.toList_append, String.toList_append,
      List.append_assoc]
  rw [readRename?, hbetween, Option.bind_some, unescape_escapeAscii, Option.map_some,
    String.ofList_toList]

theorem readField?_text {identifier : String} {slot : Slot}
    (h : (Line.field identifier slot).Sound) :
    readField? (Line.field identifier slot).text.toList = some (.field identifier slot) := by
  have hbetween : between? "    pub ".toList ",".toList (Line.field identifier slot).text.toList =
      some (identifier.toList ++ (":".toList ++ (" ".toList ++ (typeExpr slot).toList))) := by
    have hcolon : ": ".toList = ":".toList ++ " ".toList := rfl
    rw [between?_eq_some_iff, text_field]
    simp only [String.toList_append, List.append_assoc, hcolon]
  have hidentifier : ∀ c ∈ identifier.toList, (c != ':') = true := by
    intro c hc
    rw [bne_iff_ne]
    rintro rfl
    exact absurd (h.1 ':' hc) (by decide)
  -- so the first colon is the one behind the identifier
  rw [readField?, hbetween, Option.map_some, List.takeWhile_append_of_pos hidentifier,
    List.dropWhile_append_of_pos hidentifier]
  show some (Line.field (String.ofList (identifier.toList ++ []))
    (readType (typeExpr slot).toList)) = _
  rw [List.append_nil, String.ofList_toList, readType_typeExpr h.2]

/-- A sound line is read as itself. The beginnings of the kinds are different, so that the
order in which the readers are tried does not matter. -/
theorem readLine?_text {line : Line} (h : line.Sound) :
    readLine? line.text.toList = some line := by
  cases line with
  | opening name =>
    rw [readLine?, readOpening?_text]
    rfl
  -- the readers are tried in turn, and those that come first must not take the line
  | rename key =>
    have hopening : readOpening? (Line.rename key).text.toList = none := by
      rw [text_rename, String.toList_append, String.toList_append]
      rfl
    rw [readLine?, hopening, readRename?_text]
    rfl
  | field identifier slot =>
    have hopening : readOpening? (Line.field identifier slot).text.toList = none := by
      rw [text_field]
      simp only [String.toList_append]
      rfl
    have hrename : readRename? (Line.field identifier slot).text.toList = none := by
      rw [text_field]
      simp only [String.toList_append]
      rfl
    rw [readLine?, hopening, hrename, readField?_text h]
    rfl
  | _ => rfl

/-! ## Texts -/

/-- A type is in one line: neither names of types nor words for kinds have a line feed in
them. -/
theorem not_mem_typeExpr {slot : Slot}
    (h : ∀ name, slot.target? = some name → IsDeclarable reserved name) :
    '\n' ∉ (typeExpr slot).toList := by
  induction slot with
  | list item ih =>
    rw [toList_typeExpr_list, List.mem_append, List.mem_append, not_or, not_or]
    exact ⟨by decide, ih h, by decide⟩
  | named name => exact (h name rfl).not_mem (by decide)
  | _ => decide

/-- There is no line feed in a sound line. -/
theorem not_mem_text {line : Line} (h : line.Sound) : '\n' ∉ line.text.toList := by
  cases line with
  | opening name =>
    simp only [text_opening, String.toList_append, List.mem_append, not_or]
    exact ⟨⟨by decide, h.not_mem (by decide)⟩, by decide⟩
  | rename key =>
    -- a line feed in a key is written as a backslash and a letter
    have hescaped : '\n' ∉ (escapeAscii key).toList := by
      intro hmem
      exact absurd (isPrintable_of_mem_escapeAscii hmem) (by decide)
    simp only [text_rename, String.toList_append, List.mem_append, not_or]
    exact ⟨⟨by decide, hescaped⟩, by decide⟩
  | field identifier slot =>
    have hidentifier : '\n' ∉ identifier.toList := by
      intro hmem
      exact absurd (h.1 '\n' hmem) (by decide)
    simp only [text_field, String.toList_append, List.mem_append, not_or]
    exact ⟨⟨⟨⟨by decide, hidentifier⟩, by decide⟩, not_mem_typeExpr h.2⟩, by decide⟩
  | _ => decide

/-- Reading all lines gives back all lines. -/
theorem filterMap_readLine?_text {lines : List Line} (h : ∀ line ∈ lines, line.Sound) :
    (lines.map fun line => line.text.toList).filterMap readLine? = lines := by
  rw [List.filterMap_map]
  calc lines.filterMap (readLine? ∘ fun line => line.text.toList) = lines.filterMap some :=
        List.filterMap_congr fun line hline => readLine?_text (h line hline)
    _ = lines := List.filterMap_some

/-- The text of sound lines determines them: it is cut at its line feeds, and each line is
read by itself. -/
theorem textOf_injective {xs ys : List Line} (hx : ∀ line ∈ xs, line.Sound)
    (hy : ∀ line ∈ ys, line.Sound) (h : textOf xs = textOf ys) : xs = ys := by
  have htexts := congrArg String.toList h
  rw [toList_textOf, toList_textOf] at htexts
  have hlines := endedLines_injective ?_ ?_ htexts
  · -- equal texts are read as equal lines
    rw [← filterMap_readLine?_text hx, hlines, filterMap_readLine?_text hy]
  · intro cs hcs
    obtain ⟨line, hline, rfl⟩ := List.mem_map.mp hcs
    exact not_mem_text (hx line hline)
  · intro cs hcs
    obtain ⟨line, hline, rfl⟩ := List.mem_map.mp hcs
    exact not_mem_text (hy line hline)

end Shapewright.Rust
