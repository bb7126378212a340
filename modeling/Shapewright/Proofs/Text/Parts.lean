import Mathlib.Data.List.Basic
import Shapewright.Text.Quoted

/-!
# Parts of texts

How a text is taken apart by one who knows how it was put together: at the ends, at
the first character of a kind, or behind the quote that ends a quoted text.

Main definitions:

* `Text.between?` — what stands between two texts.
* `Text.after?` — what follows a beginning.
* `Text.before?` — what stands before a character, and what follows it.
* `Text.readMarked?` — a text with marked characters up to its quote, and what
  follows that.

Main results: `between?_eq_some_iff`, `after?_append`, `before?_append` and
`readMarked?_escapeWith` — each takes off what was put on.
-/

namespace Shapewright.Text

/-! ## Ends -/

/-- What stands between the two texts, if these are the ends. -/
def between? (opening closing cs : List Char) : Option (List Char) :=
  (cs.dropPrefix? opening).bind fun rest => rest.dropSuffix? closing

/-- What is between the ends is read exactly where the text consists of the one end, the inside
and the other end, in this order. -/
theorem between?_eq_some_iff {opening closing cs inside : List Char} :
    between? opening closing cs = some inside ↔ cs = opening ++ (inside ++ closing) := by
  rw [between?, Option.bind_eq_some_iff]
  constructor
  · rintro ⟨rest, hrest, hinside⟩
    obtain ⟨first, rfl, hfirst⟩ := List.dropPrefix?_eq_some_iff.mp hrest
    obtain ⟨last, rfl, hlast⟩ := List.dropSuffix?_eq_some_iff.mp hinside
    rw [beq_iff_eq.mp hfirst, beq_iff_eq.mp hlast]
  · intro h
    exact ⟨inside ++ closing, List.dropPrefix?_eq_some_iff.mpr ⟨opening, h, beq_self_eq_true _⟩,
      List.dropSuffix?_eq_some_iff.mpr ⟨closing, rfl, beq_self_eq_true _⟩⟩

/-- There is nothing between if some character of the ends is missing. -/
theorem between?_eq_none {opening closing cs : List Char} {c : Char}
    (hends : c ∈ opening ++ closing) (hcs : c ∉ cs) : between? opening closing cs = none := by
  rw [Option.eq_none_iff_forall_ne_some]
  intro inside h
  rw [between?_eq_some_iff] at h
  rw [h, List.mem_append, List.mem_append, not_or, not_or] at hcs
  rcases List.mem_append.mp hends with hopening | hclosing
  · exact hcs.1 hopening
  · exact hcs.2.2 hclosing

/-- What follows the beginning, if the text begins like that. -/
def after? (opening : String) (cs : List Char) : Option (List Char) :=
  cs.dropPrefix? opening.toList

/-- What has been put behind a beginning is what follows it. -/
theorem after?_append (opening : String) (cs : List Char) :
    after? opening (opening.toList ++ cs) = some cs :=
  List.dropPrefix?_eq_some_iff.mpr ⟨opening.toList, rfl, beq_self_eq_true _⟩

/-- Conversely, where something follows a beginning the text is made of the two. -/
theorem eq_append_of_after? {opening : String} {cs rest : List Char}
    (h : after? opening cs = some rest) : cs = opening.toList ++ rest := by
  obtain ⟨first, rfl, hfirst⟩ := List.dropPrefix?_eq_some_iff.mp h
  rw [beq_iff_eq.mp hfirst]

/-! ## The first character of a kind -/

/-- What stands before the first `stop`, and what follows it. -/
def before? (stop : Char) : List Char → Option (List Char × List Char)
  | [] => none
  | c :: rest =>
    if c = stop then some ([], rest)
    else (before? stop rest).map fun (cs, rest) => (c :: cs, rest)

/-- A text is read up to the first stop, so there must be none in what is read. -/
theorem before?_append {stop : Char} {cs : List Char} (h : stop ∉ cs) (rest : List Char) :
    before? stop (cs ++ stop :: rest) = some (cs, rest) := by
  induction cs with
  | nil => rw [List.nil_append, before?, if_pos rfl]
  | cons c cs ih =>
    rw [List.mem_cons, not_or] at h
    rw [List.cons_append, before?, if_neg (Ne.symm h.1), ih h.2, Option.map_some]

/-- Without a stop nothing is read at all. -/
theorem before?_eq_none {stop : Char} {cs : List Char} (h : stop ∉ cs) :
    before? stop cs = none := by
  induction cs with
  | nil => rfl
  | cons c cs ih =>
    rw [List.mem_cons, not_or] at h
    rw [before?, if_neg (Ne.symm h.1), ih h.2, Option.map_none]

/-! ## Marked characters -/

/-- The text up to the quote that is not marked by a backslash, without the marks of
the `special` characters, and what follows the quote. -/
def readMarked? (special : List Char) : List Char → Option (List Char × List Char)
  | [] => none
  | '"' :: rest => some ([], rest)
  | '\\' :: c :: rest =>
    if c ∈ special then (readMarked? special rest).map fun (cs, rest) => (c :: cs, rest) else none
  | c :: rest =>
    if c ∈ special then none
    else (readMarked? special rest).map fun (cs, rest) => (c :: cs, rest)

/-- A character that needs no mark is read as it is. The quote and the backslash are read in
their own ways, so both must be among those that need one. -/
theorem readMarked?_plain {special : List Char} (hquote : '"' ∈ special)
    (hbackslash : '\\' ∈ special) {c : Char} (h : c ∉ special) (rest : List Char) :
    readMarked? special (c :: rest) =
      (readMarked? special rest).map fun (cs, rest) => (c :: cs, rest) := by
  rw [readMarked?, if_neg h]
  · rintro rfl
    exact h hquote
  · rintro _ _ rfl -
    exact h hbackslash

/-- What has been marked, quotes and backslashes at least, is read up to its quote. -/
theorem readMarked?_escapeWith {special : List Char} (hquote : '"' ∈ special)
    (hbackslash : '\\' ∈ special) (cs rest : List Char) :
    readMarked? special (escapeWith special cs ++ '"' :: rest) = some (cs, rest) := by
  induction cs with
  | nil => rfl
  | cons c cs ih =>
    rw [escapeWith, List.flatMap_cons, ← escapeWith, List.append_assoc]
    by_cases h : c ∈ special
    · rw [if_pos h, List.cons_append, List.singleton_append, readMarked?, if_pos h, ih,
        Option.map_some]
    · rw [if_neg h, List.singleton_append, readMarked?_plain hquote hbackslash h, ih,
        Option.map_some]

end Shapewright.Text
