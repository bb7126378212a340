import Shapewright.Proofs.Text.Escapes
import Shapewright.Proofs.Text.Lines
import Shapewright.Proofs.Text.Parts

/-!
# Marked text

A text is written between quotes with a backslash in front of every quote and every
backslash in it, and perhaps in front of other characters. Nothing else is changed. So
the literal ends where it should and stands for the text, but a line break in the text is
one in the literal too.

Main definitions:

* `Text.unmark` — a text without the marks in it.

Main results:

* `unmark_escapeWith` — marking loses nothing.
* `literal?_escapeWith` — a quote behind a marked text ends the literal, and none before.
* `isOneLine_escapeWith_iff` — a marked text is one line if the text is.
-/

namespace Shapewright.Text

variable {special : List Char}

/-- Characters are marked one by one. -/
theorem escapeWith_cons (special : List Char) (c : Char) (cs : List Char) :
    escapeWith special (c :: cs) =
      (if c ∈ special then ['\\', c] else [c]) ++ escapeWith special cs := List.flatMap_cons

/-- Leaving out characters that need no mark takes no mark away, so it may be done before or
after marking. -/
theorem filter_escapeWith {special : List Char} (p : Char → Bool)
    (h : ∀ c ∈ special, p c = true) (hbackslash : '\\' ∈ special) (cs : List Char) :
    (escapeWith special cs).filter p = escapeWith special (cs.filter p) := by
  induction cs with
  | nil => rfl
  | cons c cs ih =>
    rw [escapeWith_cons, List.filter_append, ih, List.filter_cons]
    by_cases hc : c ∈ special
    · -- a character that needs a mark is kept, and so is the mark
      rw [if_pos hc, if_pos (h c hc), escapeWith_cons, if_pos hc, List.filter_eq_self.mpr]
      intro d hd
      rcases List.mem_pair.mp hd with rfl | rfl
      · exact h _ hbackslash
      · exact h d hc
    · -- any other one is kept or left out, and has no mark either way
      rw [if_neg hc]
      cases hp : p c with
      | true =>
        rw [List.filter_cons_of_pos hp, if_pos rfl, escapeWith_cons, if_neg hc, List.filter_nil]
      | false =>
        rw [List.filter_cons_of_neg (ne_true_of_eq_false hp), if_neg Bool.false_ne_true,
          List.filter_nil, List.nil_append]

/-! ## Reading marks -/

/-- The text without its marks. What needs a mark must have one, and nothing else may. -/
def unmark (special cs : List Char) : Option (List Char) :=
  -- no quote ends the text before the one put behind it
  match readMarked? special (cs ++ ['"']) with
  | some (text, []) => some text
  | _ => none

/-- Marking loses nothing, as long as quotes and the mark itself are marked. -/
theorem unmark_escapeWith (hquote : '"' ∈ special) (hbackslash : '\\' ∈ special)
    (cs : List Char) : unmark special (escapeWith special cs) = some cs := by
  rw [unmark, readMarked?_escapeWith hquote hbackslash]

/-! ## Literals -/

/-- A marked text may stand in a literal: every quote and every backslash in it has a mark in
front, and no mark is without its character. -/
theorem isLiteralBody_escapeWith (hquote : '"' ∈ special) (hbackslash : '\\' ∈ special)
    (cs : List Char) : IsLiteralBody (escapeWith special cs) := by
  induction cs with
  | nil => exact .nil
  | cons c cs ih =>
    rw [escapeWith_cons]
    by_cases h : c ∈ special
    · rw [if_pos h]
      exact .escape c ih
    · rw [if_neg h]
      have hplain : c ≠ '\\' ∧ c ≠ '"' := by
        constructor <;> rintro rfl
        · exact h hbackslash
        · exact h hquote
      exact .plain hplain ih

/-- A literal ends where it was meant to end, whatever follows. -/
theorem literal?_escapeWith (hquote : '"' ∈ special) (hbackslash : '\\' ∈ special)
    (cs rest : List Char) :
    literal? (escapeWith special cs ++ '"' :: rest) = some (escapeWith special cs, rest) :=
  (isLiteralBody_escapeWith hquote hbackslash cs).literal? rest

/-! ## Lines -/

/-- Marks are all that is added. -/
theorem mem_escapeWith_iff {c : Char} (h : c ≠ '\\') (cs : List Char) :
    c ∈ escapeWith special cs ↔ c ∈ cs := by
  induction cs with
  | nil => rfl
  | cons d cs ih =>
    rw [escapeWith_cons, List.mem_append, List.mem_cons, ih]
    split
    · rw [List.mem_cons, List.mem_singleton, or_iff_right h]
    · rw [List.mem_singleton]

/-- Marks are no line breaks, and no line break is marked away. -/
theorem isOneLine_escapeWith_iff (cs : List Char) :
    IsOneLine (escapeWith special cs) ↔ IsOneLine cs := by
  rw [IsOneLine, IsOneLine, mem_escapeWith_iff (by decide), mem_escapeWith_iff (by decide)]

end Shapewright.Text
