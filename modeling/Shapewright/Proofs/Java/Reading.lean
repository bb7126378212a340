import Mathlib.Data.List.SplitBy
import Shapewright.Proofs.Java.Lines

/-!
# Reading Java classes

Classes can be read back from a text by its lines. A class begins in the paragraph with the
line that says so, and goes on up to the paragraph that the next one begins in. In a text whose
classes are nested, the first lines of the outer class come before the others, and the line
that closes it comes last; the nested classes are indented.

Main definitions:

* `Source` — the imports and the classes of a text.
* `readClasses` — the source in a text whose classes follow each other.
* `readNested` — the source in a text whose classes are nested in the last one.
* `IsBlock` — lines that are not cut.

Main results:

* `lines_endedLines` — the lines of a text.
* `cut_intercalate` — blocks are found by the lines in which classes begin.
* `isBlock_of_members` — the lines of a class are a block.
-/

namespace Shapewright.Java

open Text Name

/-! ## Reading -/

/-- The imports at the head of a text, and its classes without modifiers. -/
structure Source where
  imports : String
  classes : List String
  deriving DecidableEq

def textOf (lines : List (List Char)) : String := String.ofList (['\n'].intercalate lines)

/-- What the first line of a class begins with, at the margin or inside another class. -/
def classMarkers : List (List Char) :=
  ["class ".toList, "public class ".toList, nestedMarker]

def beginsClass (line : List Char) : Bool := classMarkers.any fun marker => marker.isPrefixOf line

/-- Cut lines in front of every paragraph that a class begins in. -/
def cut (lines : List (List Char)) : List (List (List Char)) :=
  ((lines.splitOn []).splitBy fun _ next => !next.any beginsClass).map fun block =>
    [[]].intercalate block

def withoutModifier (line : List Char) : List Char :=
  ((line.dropPrefix? "public static ".toList).or (line.dropPrefix? "public ".toList)).getD line

/-- The lines of a class without its modifiers, which follow the annotations. -/
def bareLines : List (List Char) → List (List Char)
  | [] => []
  | line :: rest =>
    if line.head? = some '@' then line :: bareLines rest else withoutModifier line :: rest

def bareClass (lines : List (List Char)) : String := textOf (bareLines lines)

def outdentLine (line : List Char) : List Char := (line.dropPrefix? "    ".toList).getD line

/-- The source in a text whose classes follow each other. -/
def readClasses (text : String) : Source :=
  match cut (lines text.toList) with
  | [] => ⟨"", []⟩
  | imports :: classes => ⟨textOf imports, classes.map bareClass⟩

/-- The source in a text whose classes are nested in the last one: its first lines come in
front of those of the others, and its closing brace behind them. -/
def readNested (text : String) : Source :=
  let all := lines text.toList
  match cut all.dropLast with
  | imports :: root :: nested =>
    ⟨textOf imports, nested.map (fun block => bareClass (block.map outdentLine)) ++
      [bareClass (root ++ all.getLast?.toList)]⟩
  | _ => ⟨"", []⟩

/-! ## Lines of a text -/

/-- A text goes up to its first line feed in one line. -/
theorem lines_append_newline {line : List Char} (h : IsOneLine line) (rest : List Char) :
    lines (line ++ '\n' :: rest) = line :: lines rest := by
  induction line with
  | nil => rw [List.nil_append, lines]
  | cons c cs ih =>
    obtain ⟨hfeed, hreturn⟩ := h
    rw [List.mem_cons, not_or] at hfeed hreturn
    rw [List.cons_append, lines, ih ⟨hfeed.2, hreturn.2⟩]
    · exact fun hc => hfeed.1 hc.symm
    · exact fun _ hc => absurd hc.symm hreturn.1

/-- Without line breaks it is one line as a whole. -/
theorem lines_of_isOneLine {line : List Char} (h : IsOneLine line) (hne : line ≠ []) :
    lines line = [line] := by
  induction line with
  | nil => exact absurd rfl hne
  | cons c cs ih =>
    obtain ⟨hfeed, hreturn⟩ := h
    rw [List.mem_cons, not_or] at hfeed hreturn
    rw [lines]
    · cases cs with
      | nil => rfl
      | cons d ds => rw [ih ⟨hfeed.2, hreturn.2⟩ (List.cons_ne_nil _ _)]
    · exact fun hc => hfeed.1 hc.symm
    · exact fun _ hc => absurd hc.symm hreturn.1

/-- Lines that have been ended are found again, in front of whatever follows. -/
theorem lines_endedLines_append {ls : List (List Char)} (h : ∀ line ∈ ls, IsOneLine line)
    (rest : List Char) : lines (endedLines ls ++ rest) = ls ++ lines rest := by
  induction ls with
  | nil => rfl
  | cons line more ih =>
    obtain ⟨hline, hmore⟩ := List.forall_mem_cons.mp h
    rw [endedLines_cons, List.append_assoc, List.cons_append, lines_append_newline hline, ih hmore,
      List.cons_append]

/-- **Ended lines are read back**, if none of them has a line break of either kind inside. -/
theorem lines_endedLines {ls : List (List Char)} (h : ∀ line ∈ ls, IsOneLine line) :
    lines (endedLines ls) = ls := by
  have hlines := lines_endedLines_append h []
  rwa [List.append_nil, lines, List.append_nil] at hlines

/-! ## Blocks -/

/-- Paragraphs the first of which a class begins in, if `begins`, and none else. -/
structure BeginsOnce (begins : Bool) (paragraphs : List (List (List Char))) : Prop where
  nonblank : ∀ paragraph ∈ paragraphs, [] ∉ paragraph
  first    : ∃ paragraph more, paragraphs = paragraph :: more ∧
    paragraph.any beginsClass = begins ∧ ∀ other ∈ more, other.any beginsClass = false

/-- There is a paragraph in which the class begins, or would begin. -/
theorem BeginsOnce.ne_nil {begins : Bool} {paragraphs : List (List (List Char))}
    (h : BeginsOnce begins paragraphs) : paragraphs ≠ [] := by
  obtain ⟨paragraph, more, rfl, -, -⟩ := h.first
  exact List.cons_ne_nil _ _

/-- Blocks that follow each other are cut where one begins, and nowhere else. The cuts are told by
the paragraph behind each: a class begins in the first one of a block and in no other. -/
theorem splitBy_flatten_blocks {first : List (List (List Char))}
    {blocks : List (List (List (List Char)))} {begins : Bool} (hfirst : BeginsOnce begins first)
    (hblocks : ∀ block ∈ blocks, BeginsOnce true block) :
    (first :: blocks).flatten.splitBy (fun _ next => !next.any beginsClass) = first :: blocks := by
  -- no cut inside a block
  have hone {begins : Bool} {block : List (List (List Char))} (h : BeginsOnce begins block) :
      block.IsChain fun _ next => (!next.any beginsClass) = true := by
    obtain ⟨paragraph, more, rfl, -, hmore⟩ := h.first
    have hnone : ∀ other ∈ more, (!other.any beginsClass) = true := fun other hother =>
      (Bool.not_eq_true' _).mpr (hmore other hother)
    exact List.Pairwise.isChain (List.pairwise_cons.mpr
      ⟨hnone, List.pairwise_of_forall_mem_list fun _ _ other hother => hnone other hother⟩)
  -- a cut in front of every block but the first
  have hnext {block next : List (List (List Char))} (hblock : block ≠ [])
      (h : BeginsOnce true next) : ∃ (ha : block ≠ []) (hb : next ≠ []),
        (fun (_ next : List (List Char)) => !next.any beginsClass) (block.getLast ha)
          (next.head hb) = false := by
    obtain ⟨paragraph, more, rfl, hbegins, -⟩ := h.first
    exact ⟨hblock, List.cons_ne_nil _ _, (Bool.not_eq_false' _).mpr hbegins⟩
  have hne : ∀ block ∈ first :: blocks, block ≠ [] :=
    List.forall_mem_cons.mpr ⟨hfirst.ne_nil, fun block hblock => (hblocks block hblock).ne_nil⟩
  refine List.splitBy_flatten (fun hnil => hne [] hnil rfl) ?_ ?_
  · exact List.forall_mem_cons.mpr ⟨hone hfirst, fun block hblock => hone (hblocks block hblock)⟩
  · refine List.Pairwise.isChain (List.pairwise_cons.mpr ⟨?_, ?_⟩)
    · exact fun next hmem => hnext hfirst.ne_nil (hblocks next hmem)
    · exact List.pairwise_of_forall_mem_list fun block hblock next hmem =>
        hnext (hblocks block hblock).ne_nil (hblocks next hmem)

/-- Lines in the first paragraph of which a class begins, if `begins`, and in none else. -/
def IsBlock (begins : Bool) (lines : List (List Char)) : Prop :=
  ∃ paragraphs, BeginsOnce begins paragraphs ∧ [[]].intercalate paragraphs = lines

/-- Blocks with blank lines between them are cut into these blocks. Blank lines inside of them
are no places to cut, since no class begins behind these. -/
theorem cut_intercalate {first : List (List Char)} {blocks : List (List (List Char))}
    {begins : Bool} (hfirst : IsBlock begins first)
    (hblocks : ∀ block ∈ blocks, IsBlock true block) :
    cut ([[]].intercalate (first :: blocks)) = first :: blocks := by
  obtain ⟨head, hhead, rfl⟩ := hfirst
  -- the paragraphs of every block are named at once, by induction on the blocks
  obtain ⟨others, hothers, rfl⟩ : ∃ others : List (List (List (List Char))),
      (∀ paragraphs ∈ others, BeginsOnce true paragraphs) ∧
        (others.map fun paragraphs => [[]].intercalate paragraphs) = blocks := by
    induction blocks with
    | nil => exact ⟨[], fun _ hmem => absurd hmem List.not_mem_nil, rfl⟩
    | cons block more ih =>
      obtain ⟨⟨paragraphs, hparagraphs, rfl⟩, hmore⟩ := List.forall_mem_cons.mp hblocks
      obtain ⟨others, hothers, rfl⟩ := ih hmore
      exact ⟨paragraphs :: others, List.forall_mem_cons.mpr ⟨hparagraphs, hothers⟩, rfl⟩
  have hne : [] ∉ head :: others := by
    intro hnil
    rcases List.mem_cons.mp hnil with hself | hmore
    · exact hhead.ne_nil hself.symm
    · exact (hothers [] hmore).ne_nil rfl
  -- no paragraph holds a blank line, so the blank lines are exactly the places of the cuts
  have hblank : ∀ paragraph ∈ (head :: others).flatten, [] ∉ paragraph := by
    intro paragraph hparagraph
    obtain ⟨block, hblock, hmem⟩ := List.mem_flatten.mp hparagraph
    rcases List.mem_cons.mp hblock with rfl | hmore
    · exact hhead.nonblank paragraph hmem
    · exact (hothers block hmore).nonblank paragraph hmem
  have hparagraphs : (head :: others).flatten ≠ [] := by
    rw [List.flatten_cons]
    exact List.append_ne_nil_of_left_ne_nil hhead.ne_nil _
  rw [cut, ← List.map_cons (f := fun paragraphs => [[]].intercalate paragraphs),
    ← intercalate_flatten hne, List.splitOn_intercalate [] hblank hparagraphs,
    splitBy_flatten_blocks hhead hothers]

/-- A line inside a class: neither blank nor the first of another class. -/
def IsInside (line : List Char) : Prop := line ≠ [] ∧ beginsClass line = false

/-- What closes a class belongs to its last member: as paragraphs they are one, with no blank
line between. -/
theorem exists_intercalate_append {members : List (List (List Char))} (hne : members ≠ [])
    (hmembers : ∀ member ∈ members, ∀ line ∈ member, IsInside line) {closing : List (List Char)}
    (hclosing : ∀ line ∈ closing, IsInside line) :
    ∃ more : List (List (List Char)), more ≠ [] ∧
      (∀ member ∈ more, ∀ line ∈ member, IsInside line) ∧
      [[]].intercalate members ++ closing = [[]].intercalate more := by
  induction members with
  | nil => exact absurd rfl hne
  | cons member others ih =>
    obtain ⟨hmember, hothers⟩ := List.forall_mem_cons.mp hmembers
    cases others with
    -- the closing lines go to the last member, which is where the induction ends
    | nil =>
      refine ⟨[member ++ closing], List.cons_ne_nil _ _, List.forall_mem_singleton.mpr ?_, ?_⟩
      · exact List.forall_mem_append.mpr ⟨hmember, hclosing⟩
      · rw [List.intercalate_singleton, List.intercalate_singleton]
    | cons next others =>
      obtain ⟨more, hmore, hinside, heq⟩ := ih (List.cons_ne_nil _ _) hothers
      refine ⟨member :: more, List.cons_ne_nil _ _, List.forall_mem_cons.mpr ⟨hmember, hinside⟩, ?_⟩
      rw [List.intercalate_cons_cons, List.intercalate_cons_of_ne_nil hmore, ← heq,
        List.append_assoc]

/-- The lines that open a class, its members, and what closes it are one block. The class
begins in the first paragraph, and no other one begins in the rest. -/
theorem isBlock_of_members {opening closing : List (List Char)} {members : List (List (List Char))}
    (hopening : [] ∉ opening) (hbegins : opening.any beginsClass = true) (hne : members ≠ [])
    (hmembers : ∀ member ∈ members, ∀ line ∈ member, IsInside line)
    (hclosing : ∀ line ∈ closing, IsInside line) :
    IsBlock true (opening ++ [[]].intercalate members ++ closing) := by
  -- the first paragraph has the opening lines in front of it, the last one what closes the
  -- class
  obtain ⟨paragraphs, hparagraphs, hinside, heq⟩ :=
    exists_intercalate_append hne hmembers hclosing
  obtain ⟨first, more, rfl⟩ := List.exists_cons_of_ne_nil hparagraphs
  obtain ⟨hfirst, hmore⟩ := List.forall_mem_cons.mp hinside
  refine ⟨(opening ++ first) :: more, ⟨?_, ?_⟩, ?_⟩
  · refine List.forall_mem_cons.mpr ⟨?_, fun paragraph hmem hnil => (hmore _ hmem [] hnil).1 rfl⟩
    rw [List.mem_append, not_or]
    exact ⟨hopening, fun hnil => (hfirst [] hnil).1 rfl⟩
  · -- the class begins in the first paragraph, and no line of the others begins one
    refine ⟨_, _, rfl, ?_, fun other hother => List.any_eq_false.mpr fun line hline => ?_⟩
    · rw [List.any_append, hbegins, Bool.true_or]
    · exact Bool.eq_false_iff.mp (hmore other hother line hline).2
  · rw [List.append_assoc, heq]
    cases more with
    | nil => rw [List.intercalate_singleton, List.intercalate_singleton]
    | cons next more =>
      rw [List.intercalate_cons_cons, List.intercalate_cons_cons]
      simp only [List.append_assoc]

end Shapewright.Java
