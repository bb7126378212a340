import Mathlib.Data.List.Nodup
import Shapewright.Dialect.Rust
import Shapewright.Proofs.Text.Lines

/-!
# Rust structs by lines

The text of a plan is a list of lines, and there are few kinds of them. All that
a line says beside its kind is a name, a key, or a field with its type.

Main definitions:

* `Line`, with `Line.text`.
* `planLines` — the lines of a plan.

Main result: `content_eq` — the rendered text is these lines, each ended by a line
feed.
-/

namespace Shapewright.Rust

open Text

/-- One line of output. -/
inductive Line where
  /-- The import of what structs derive. -/
  | imports
  | blank
  | derive
  | opening (name : String)
  /-- The remark in a struct without fields. -/
  | nothing
  | rename (key : String)
  | field (identifier : String) (slot : Slot)
  | closing
  deriving Repr, DecidableEq

def Line.text : Line → String
  | .imports => "use serde::\x7bDeserialize, Serialize\x7d;"
  | .blank => ""
  | .derive => "#[derive(Debug, Clone, Serialize, Deserialize)]"
  | .opening name => "pub struct " ++ name ++ " \x7b"
  | .nothing => "    // no fields observed"
  | .rename key => "    #[serde(rename = \"" ++ escapeAscii key ++ "\")]"
  | .field identifier slot => "    pub " ++ identifier ++ ": " ++ typeExpr slot ++ ","
  | .closing => "\x7d"

/-- The texts of the lines that hold a name, a key or a type. -/
theorem text_opening (name : String) :
    (Line.opening name).text = "pub struct " ++ name ++ " \x7b" := rfl

theorem text_rename (key : String) :
    (Line.rename key).text = "    #[serde(rename = \"" ++ escapeAscii key ++ "\")]" := rfl

theorem text_field (identifier : String) (slot : Slot) :
    (Line.field identifier slot).text =
      "    pub " ++ identifier ++ ": " ++ typeExpr slot ++ "," := rfl

/-- The lines with a line feed behind each. -/
def textOf (lines : List Line) : String := String.join (lines.map fun line => line.text ++ "\n")

theorem textOf_nil : textOf [] = "" := rfl

/-- The first line is ended, and the others follow. -/
theorem textOf_cons (line : Line) (lines : List Line) :
    textOf (line :: lines) = line.text ++ "\n" ++ textOf lines := by
  rw [textOf, List.map_cons, String.join_cons, textOf]

theorem textOf_singleton (line : Line) : textOf [line] = line.text ++ "\n" := by
  rw [textOf, List.map_singleton, String.join_cons, String.join_nil, String.append_empty]

theorem textOf_append (xs ys : List Line) : textOf (xs ++ ys) = textOf xs ++ textOf ys := by
  rw [textOf, List.map_append, String.join_append, textOf, textOf]

/-- A text of lines is these lines, ended. -/
theorem toList_textOf (lines : List Line) :
    (textOf lines).toList = endedLines (lines.map fun line => line.text.toList) := by
  rw [textOf, String.toList_join, endedLines, List.flatMap_map, List.flatMap_map]
  apply List.flatMap_congr
  intro line _
  have hfeed : "\n".toList = ['\n'] := rfl
  rw [String.toList_append, hfeed]

/-! ## Structs -/

/-- The lines of a field: its key, where the name does not say it, and the field. -/
def memberLines (member : String × Slot) : List Line :=
  (if (fieldName member.1).renamed then [.rename member.1] else []) ++
    [.field (fieldName member.1).text member.2]

def structLines (d : Declaration) : List Line :=
  [.derive, .opening d.name] ++ (if d.isEmpty then [.nothing] else []) ++
    d.slots.flatMap memberLines ++ [.closing]

/-- The lines of all structs, with a blank one between any two. -/
def blocksLines : List Declaration → List Line
  | [] => []
  | [d] => structLines d
  | d :: next :: more => structLines d ++ .blank :: blocksLines (next :: more)

def planLines (p : Plan) : List Line := .imports :: .blank :: blocksLines p.types

/-! ## The text of the lines -/

/-- What is printed for a field is its lines, one or two: the attribute is there if the name
does not say the key. -/
theorem renderField_eq (member : String × Slot) :
    renderField member = textOf (memberLines member) := by
  -- a line feed is part of what is printed, and no part of a line
  have hcomma : ",\n" = "," ++ "\n" := rfl
  have hfield : textOf [.field (fieldName member.1).text member.2] =
      "    pub " ++ (fieldName member.1).text ++ ": " ++ typeExpr member.2 ++ ",\n" := by
    rw [textOf_singleton, text_field, hcomma]
    simp only [String.append_assoc]
  have hbracket : "\")]\n" = "\")]" ++ "\n" := rfl
  have hrename : textOf [.rename member.1] = renameAttribute member.1 := by
    show _ = "    #[serde(rename = \"" ++ escapeAscii member.1 ++ "\")]\n"
    rw [textOf_singleton, text_rename, hbracket]
    simp only [String.append_assoc]
  rw [memberLines, textOf_append, hfield]
  show (if (fieldName member.1).renamed then renameAttribute member.1 else "") ++
    "    pub " ++ (fieldName member.1).text ++ ": " ++ typeExpr member.2 ++ ",\n" = _
  -- the attribute is there, or nothing is
  by_cases hrenamed : (fieldName member.1).renamed = true
  · rw [if_pos hrenamed, if_pos hrenamed, hrename]
    simp only [String.append_assoc]
  · rw [if_neg hrenamed, if_neg hrenamed, textOf_nil]
    simp only [String.append_assoc]

/-- What is printed for all fields is the lines of all. -/
theorem join_renderField (members : List (String × Slot)) :
    String.join (members.map renderField) = textOf (members.flatMap memberLines) := by
  induction members with
  | nil => rfl
  | cons member rest ih =>
    rw [List.map_cons, String.join_cons, List.flatMap_cons, textOf_append, ih, renderField_eq]

/-- A rendered struct is its lines but for the line feed of the last one, which is put there
when the structs are joined. -/
theorem renderStruct_eq (d : Declaration) : renderStruct d ++ "\n" = textOf (structLines d) := by
  have hderive : "#[derive(Debug, Clone, Serialize, Deserialize)]\n" =
      Line.derive.text ++ "\n" := rfl
  have hbrace : " \x7b\n" = " \x7b" ++ "\n" := rfl
  have hremark : (if d.isEmpty then "    // no fields observed\n" else "") =
      textOf (if d.isEmpty then [.nothing] else []) := by
    split <;> rfl
  have hclosing : textOf [.closing] = "\x7d" ++ "\n" := rfl
  rw [structLines, textOf_append, textOf_append, textOf_append, textOf_cons, textOf_singleton,
    hclosing, ← join_renderField]
  -- unfolding with `rw` would evaluate the literals
  show "#[derive(Debug, Clone, Serialize, Deserialize)]\n" ++ "pub struct " ++ d.name ++
      " \x7b\n" ++ (if d.isEmpty then "    // no fields observed\n" else "") ++
      String.join (d.slots.map renderField) ++ "\x7d" ++ "\n" = _
  rw [hderive, hbrace, hremark]
  simp only [text_opening, String.append_assoc]

/-- **What is printed for several types is their lines**, with a blank line between any two.
The induction is on the types behind the first one. -/
theorem intercalate_renderStruct (d : Declaration) (more : List Declaration) :
    "\n\n".intercalate ((d :: more).map renderStruct) ++ "\n" =
      textOf (blocksLines (d :: more)) := by
  induction more generalizing d with
  | nil =>
    rw [List.map_cons, List.map_nil, String.intercalate_singleton, renderStruct_eq]
    rfl
  | cons next more ih =>
    have hseparator : "\n\n" = "\n" ++ "\n" := rfl
    have hblank : (Line.blank).text = "" := rfl
    rw [List.map_cons, List.map_cons, String.intercalate_cons_cons, ← List.map_cons,
      String.append_assoc, ih next, blocksLines, textOf_append, textOf_cons, ← renderStruct_eq,
      hblank, String.empty_append]
    simp only [hseparator, String.append_assoc]

/-- The last character of a struct is a brace. -/
theorem isOpenEnded_renderStruct (d : Declaration) : IsOpenEnded (renderStruct d) := by
  have hbrace : IsOpenEnded "\x7d" := ⟨'\x7d', by decide, by decide⟩
  exact hbrace.append _

/-- The rendered text is the lines of the plan. -/
theorem content_eq (p : Plan) :
    stack header (p.types.map renderStruct) "\n\n" = textOf (planLines p) := by
  obtain ⟨d, more, htypes⟩ : ∃ d more, p.types = d :: more := by
    cases h : p.types with
    | nil => exact absurd h (List.append_ne_nil_of_right_ne_nil _ (List.cons_ne_nil _ _))
    | cons d more => exact ⟨d, more, rfl⟩
  have hopen : ∀ block ∈ (d :: more).map renderStruct, IsOpenEnded block := by
    intro block hblock
    obtain ⟨e, -, rfl⟩ := List.mem_map.mp hblock
    exact isOpenEnded_renderStruct e
  have hheader : header = Line.imports.text ++ "\n" ++ (Line.blank.text ++ "\n") := rfl
  rw [htypes, stack_eq _ _ (by simp) hopen, planLines, htypes, textOf_cons, textOf_cons,
    String.append_assoc, intercalate_renderStruct, hheader, String.append_assoc]

end Shapewright.Rust
