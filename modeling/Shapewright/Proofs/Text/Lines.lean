import Shapewright.Rendered

/-!
# Lines

A text of lines that each end in a line feed determines the lines, as long as
there is no line feed inside them. Blocks that are stacked do not end their last
line; the line feed behind the last block comes from the stack.

Main definitions:

* `endedLines` — lines with a line feed behind each.
* `IsOneLine` — a text without line breaks.
* `IsOpenEnded` — a text whose last line has begun and not ended.

Main results:

* `eq_of_append_cons_eq` — the part before the first separator is determined.
* `endedLines_injective` — so are all lines.
* `stack_eq` — a stack of open blocks, with the one line feed that it adds.
* `toList_nestInside` — declarations placed inside another one, as lines.
-/

namespace Shapewright.Text

/-- A text is cut at its first separator in one way only: neither part in front has the separator
in it, so they end at the same place. -/
theorem eq_of_append_cons_eq {c : Char} {xs ys : List Char} (hx : c ∉ xs) (hy : c ∉ ys)
    {rest others : List Char} (h : xs ++ c :: rest = ys ++ c :: others) :
    xs = ys ∧ rest = others := by
  induction xs generalizing ys with
  | nil =>
    cases ys with
    -- one of the two would go on, and have the separator in it
    | nil => exact ⟨rfl, (List.cons.inj h).2⟩
    | cons d ys =>
      obtain ⟨rfl, -⟩ := List.cons.inj h
      exact absurd List.mem_cons_self hy
  | cons d xs ih =>
    cases ys with
    | nil =>
      obtain ⟨rfl, -⟩ := List.cons.inj h
      exact absurd List.mem_cons_self hx
    | cons e ys =>
      obtain ⟨rfl, htail⟩ := List.cons.inj h
      obtain ⟨rfl, hrest⟩ := ih (fun hmem => hx (List.mem_cons_of_mem d hmem))
        (fun hmem => hy (List.mem_cons_of_mem d hmem)) htail
      exact ⟨rfl, hrest⟩

/-- The lines with a line feed behind each. -/
def endedLines (lines : List (List Char)) : List Char := lines.flatMap fun line => line ++ ['\n']

/-- The first line goes up to the first line feed. -/
theorem endedLines_cons (line : List Char) (lines : List (List Char)) :
    endedLines (line :: lines) = line ++ '\n' :: endedLines lines := by
  rw [endedLines, List.flatMap_cons, List.append_assoc]
  rfl

/-- Lines are ended one by one, so that they may be ended in two portions. -/
theorem endedLines_append (xs ys : List (List Char)) :
    endedLines (xs ++ ys) = endedLines xs ++ endedLines ys := List.flatMap_append

/-- Blocks of lines with a blank line between any two. -/
theorem endedLines_intercalate (blocks : List (List (List Char))) :
    endedLines ([[]].intercalate blocks) = ['\n'].intercalate (blocks.map endedLines) := by
  induction blocks with
  | nil => rfl
  | cons block more ih =>
    cases more with
    | nil => rw [List.map_singleton, List.intercalate_singleton, List.intercalate_singleton]
    | cons next more =>
      rw [List.intercalate_cons_cons, endedLines_append, endedLines_append, ih]
      simp only [List.map_cons, List.intercalate_cons_cons]
      rfl

/-- Joined by line feeds, all lines but the last are ended. -/
theorem intercalate_concat (lines : List (List Char)) (last : List Char) :
    ['\n'].intercalate (lines ++ [last]) = endedLines lines ++ last := by
  induction lines with
  | nil => rw [List.nil_append, List.intercalate_singleton, endedLines, List.flatMap_nil,
      List.nil_append]
  | cons line more ih =>
    have hne : more ++ [last] ≠ [] := List.append_ne_nil_of_right_ne_nil _ (List.cons_ne_nil _ _)
    rw [List.cons_append, List.intercalate_cons_of_ne_nil hne, ih, endedLines_cons,
      List.append_assoc, List.append_assoc, List.singleton_append, List.cons_append]

/-- A line feed behind the join ends the last line as well. -/
theorem intercalate_append_newline {lines : List (List Char)} (hne : lines ≠ []) :
    ['\n'].intercalate lines ++ ['\n'] = endedLines lines := by
  obtain ⟨last, hlast⟩ := Option.ne_none_iff_exists'.mp (mt List.getLast?_eq_none_iff.mp hne)
  obtain ⟨before, rfl⟩ := List.getLast?_eq_some_iff.mp hlast
  rw [intercalate_concat, endedLines_append, List.append_assoc]
  exact congrArg (endedLines before ++ ·) (List.append_nil _).symm

/-- The text holds no line break. -/
def IsOneLine (cs : List Char) : Prop := '\n' ∉ cs ∧ '\r' ∉ cs

instance (cs : List Char) : Decidable (IsOneLine cs) :=
  inferInstanceAs (Decidable ('\n' ∉ cs ∧ '\r' ∉ cs))

/-- Two texts without line breaks make one without them. -/
theorem IsOneLine.append {xs ys : List Char} (hx : IsOneLine xs) (hy : IsOneLine ys) :
    IsOneLine (xs ++ ys) :=
  ⟨fun h => (List.mem_append.mp h).elim hx.1 hy.1, fun h => (List.mem_append.mp h).elim hx.2 hy.2⟩

/-- **Ended lines determine the lines**, as long as no line has a line feed in it. The induction
is on one list of lines; the other one must begin with the same line, since both are cut at
the first line feed. -/
theorem endedLines_injective {xs ys : List (List Char)} (hx : ∀ line ∈ xs, '\n' ∉ line)
    (hy : ∀ line ∈ ys, '\n' ∉ line) (h : endedLines xs = endedLines ys) : xs = ys := by
  induction xs generalizing ys with
  | nil =>
    cases ys with
    | nil => rfl
    | cons line ys =>
      rw [endedLines_cons] at h
      exact absurd h.symm (List.append_ne_nil_of_right_ne_nil line (List.cons_ne_nil _ _))
  | cons line xs ih =>
    cases ys with
    | nil =>
      rw [endedLines_cons] at h
      exact absurd h (List.append_ne_nil_of_right_ne_nil line (List.cons_ne_nil _ _))
    | cons other ys =>
      rw [endedLines_cons, endedLines_cons] at h
      -- both texts are cut at their first line feed
      obtain ⟨rfl, hrest⟩ := eq_of_append_cons_eq (hx line List.mem_cons_self)
        (hy other List.mem_cons_self) h
      rw [ih (fun l hl => hx l (List.mem_cons_of_mem line hl))
        (fun l hl => hy l (List.mem_cons_of_mem line hl)) hrest]

/-! ## Stacks -/

/-- The last line of the text has begun and not ended. -/
def IsOpenEnded (text : String) : Prop := ∃ c, text.toList.getLast? = some c ∧ c ≠ '\n'

/-- What stands in front does not matter for the last line. -/
theorem IsOpenEnded.append {text : String} (h : IsOpenEnded text) (front : String) :
    IsOpenEnded (front ++ text) := by
  obtain ⟨c, hlast, hc⟩ := h
  refine ⟨c, ?_, hc⟩
  rw [String.toList_append, List.getLast?_append, hlast, Option.some_or]

/-- A join ends as its last part does, whatever the separator. -/
theorem IsOpenEnded.intercalate (separator : String) {blocks : List String} (hne : blocks ≠ [])
    (h : ∀ block ∈ blocks, IsOpenEnded block) : IsOpenEnded (separator.intercalate blocks) := by
  induction blocks with
  | nil => exact absurd rfl hne
  | cons block more ih =>
    obtain ⟨hblock, hmore⟩ := List.forall_mem_cons.mp h
    cases more with
    | nil =>
      rw [String.intercalate_singleton]
      exact hblock
    | cons next more =>
      rw [String.intercalate_cons_cons]
      exact (ih (List.cons_ne_nil _ _) hmore).append _

/-- A line that has begun and not ended is ended by one line feed. -/
theorem endLine_eq {text : String} (h : IsOpenEnded text) : endLine text = text ++ "\n" := by
  obtain ⟨c, hlast, hc⟩ := h
  rw [endLine, if_neg]
  rw [hlast, Option.some_inj]
  exact hc

/-- Blocks that do not end their last line are stacked with one line feed behind all. -/
theorem stack_eq (header separator : String) {blocks : List String} (hne : blocks ≠ [])
    (h : ∀ block ∈ blocks, IsOpenEnded block) :
    stack header blocks separator = header ++ separator.intercalate blocks ++ "\n" :=
  endLine_eq ((IsOpenEnded.intercalate separator hne h).append header)

/-- One more block stands behind the separator that follows the others. -/
theorem stack_concat (header separator : String) {blocks : List String} (hne : blocks ≠ [])
    {block : String} (h : IsOpenEnded block) :
    stack header (blocks ++ [block]) separator =
      header ++ separator.intercalate blocks ++ separator ++ block ++ "\n" := by
  have hall : separator.intercalate (blocks ++ [block]) =
      separator.intercalate blocks ++ separator ++ block := by
    rw [String.intercalate_append_of_ne_nil hne (List.cons_ne_nil _ _),
      String.intercalate_singleton]
  rw [stack, hall, endLine_eq ((h.append _).append header)]
  simp only [String.append_assoc]

/-! ## Declarations inside others -/

/-- Nothing is trimmed behind a character that is no blank. -/
theorem trimEnd_concat (cs : List Char) {c : Char} (h : isSpace c = false) :
    trimEnd (cs ++ [c]) = cs ++ [c] := by
  rw [trimEnd, List.reverse_append, List.reverse_singleton, List.singleton_append,
    List.dropWhile_cons_of_neg (Bool.eq_false_iff.mp h), List.reverse_cons, List.reverse_reverse]

/-- A blank at the end makes no difference once the end is trimmed. -/
theorem trimEnd_append_space (cs : List Char) {c : Char} (h : isSpace c = true) :
    trimEnd (cs ++ [c]) = trimEnd cs := by
  rw [trimEnd, List.reverse_append, List.reverse_singleton, List.singleton_append,
    List.dropWhile_cons_of_pos h, trimEnd]

/-- Of lines the last of which ends visibly, only the last line feed is trimmed. -/
theorem trimEnd_endedLines {lines : List (List Char)}
    (h : ∃ line ∈ lines.getLast?, ∃ c ∈ line.getLast?, isSpace c = false) :
    trimEnd (endedLines lines) ++ ['\n'] = endedLines lines := by
  obtain ⟨line, hline, c, hc, hvisible⟩ := h
  obtain ⟨before, rfl⟩ := List.getLast?_eq_some_iff.mp hline
  obtain ⟨front, rfl⟩ := List.getLast?_eq_some_iff.mp hc
  have hended : endedLines (before ++ [front ++ [c]]) =
      endedLines before ++ front ++ [c] ++ ['\n'] := by
    rw [endedLines_append, endedLines_cons]
    simp only [List.append_assoc]
    rfl
  rw [hended, trimEnd_append_space _ (by decide), trimEnd_concat _ hvisible]

/-- Blank lines between texts, and a line feed behind the last one. -/
theorem intercalate_blank {texts : List (List Char)} (hne : texts ≠ []) :
    ['\n', '\n'].intercalate texts ++ ['\n'] =
      ['\n'].intercalate (texts.map fun text => text ++ ['\n']) := by
  induction texts with
  | nil => exact absurd rfl hne
  | cons text more ih =>
    cases more with
    | nil => rw [List.map_singleton, List.intercalate_singleton, List.intercalate_singleton]
    | cons next more =>
      have hmore := ih (List.cons_ne_nil next more)
      simp only [List.map_cons, List.intercalate_cons_cons, List.append_assoc] at hmore ⊢
      rw [hmore]
      rfl

/-- What is nested inside a declaration stands between its lines and its closing brace, with
a blank line in front of each. -/
theorem toList_nestInside {outer : String} {lines : List (List Char)}
    (houter : outer.toList = endedLines lines ++ ['\x7d'])
    (hlast : ∃ line ∈ lines.getLast?, ∃ c ∈ line.getLast?, isSpace c = false)
    {inner : List String} {nested : List (List (List Char))}
    (hinner : inner.map (fun text => text.toList ++ ['\n']) = nested.map endedLines) :
    (nestInside outer inner).toList =
      endedLines ([[]].intercalate (lines :: nested)) ++ ['\x7d'] := by
  -- the brace is what the declaration ends in, and it is taken off to be put behind the rest
  have htrimmed : trimEndText outer = outer := by
    rw [trimEndText, houter, trimEnd_concat _ (by decide), ← houter, String.ofList_toList]
  have hbody : dropClosingBrace? outer = some (String.ofList (endedLines lines)) := by
    rw [dropClosingBrace?, houter, List.reverse_append, List.reverse_singleton]
    show some (String.ofList (endedLines lines).reverse.reverse) = _
    rw [List.reverse_reverse]
  unfold nestInside
  rw [htrimmed]
  cases inner with
  | nil =>
    obtain rfl : nested = [] := List.map_eq_nil_iff.mp hinner.symm
    rw [List.intercalate_singleton, ← houter]
    rfl
  | cons text more =>
    cases nested with
    | nil => cases hinner
    | cons first others =>
      -- what is nested is joined by two line feeds, which is a blank line between them
      have hblocks : ['\n', '\n'].intercalate ((text :: more).map String.toList) ++ ['\n'] =
          endedLines ([[]].intercalate (first :: others)) := by
        rw [intercalate_blank (by simp), List.map_map, endedLines_intercalate, ← hinner]
        rfl
      have hfront : (trimEndText (String.ofList (endedLines lines))).toList ++ ['\n'] =
          endedLines lines := by
        rw [trimEndText, String.toList_ofList, String.toList_ofList, trimEnd_endedLines hlast]
      have hfeeds : "\n\n".toList = ['\n'] ++ ['\n'] := rfl
      have hbrace : "\n\x7d".toList = ['\n'] ++ ['\x7d'] := rfl
      rw [List.intercalate_cons_cons, endedLines_append, endedLines_append, ← hblocks, ← hfront]
      simp only [List.isEmpty_cons, Bool.false_eq_true, if_false, hbody, String.toList_append,
        String.toList_intercalate, hfeeds, hbrace, List.append_assoc]
      rfl

end Shapewright.Text
