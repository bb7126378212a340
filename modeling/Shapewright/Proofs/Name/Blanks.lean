import Shapewright.Proofs.Name.Letters
import Shapewright.Text.Blank

/-!
# Blanks around a name

A name is spelled by its words, and no blank is part of a word: a name with blanks at its
ends is spelled like the name without them.

Main results:

* `splitWords_append_cons` — a character outside words ends one.
* `words_trim` — trimming loses no words.
* `pascalCase_trim` — nor does it change the spelling.
-/

namespace Shapewright.Name

open Text

/-! ## Words -/

/-- There is always a first word, though it may be empty: what is read next is put in front
of it. -/
theorem splitWords_ne_nil (cs : List Char) : splitWords cs ≠ [] := by
  cases cs with
  | nil => exact List.cons_ne_nil _ _
  | cons c rest =>
    rw [splitWords]
    split
    · split <;> exact List.cons_ne_nil _ _
    · exact List.cons_ne_nil _ _

/-- A character outside words splits a text: there are the words in front of it, and those
behind. -/
theorem splitWords_append_cons {c : Char} (hc : c.isAlphanum = false) (xs ys : List Char) :
    splitWords (xs ++ c :: ys) = splitWords xs ++ splitWords ys := by
  induction xs with
  | nil =>
    have hempty : splitWords [] = [[]] := rfl
    rw [hempty, List.nil_append, splitWords, if_neg (Bool.eq_false_iff.mp hc)]
    rfl
  | cons d rest ih =>
    rw [List.cons_append, splitWords, splitWords, ih]
    split
    · -- the first word goes on
      obtain ⟨word, others, hwords⟩ := List.exists_cons_of_ne_nil (splitWords_ne_nil rest)
      rw [hwords]
      rfl
    · rfl

/-- A character outside words separates the words on its two sides, and belongs to none. -/
theorem words_append_cons {c : Char} (hc : c.isAlphanum = false) (xs ys : List Char) :
    words (xs ++ c :: ys) = words xs ++ words ys := by
  rw [words, splitWords_append_cons hc, List.filter_append, words, words]

/-- What is outside words adds none in front of a text. -/
theorem words_append_of_front {xs : List Char} (h : ∀ c ∈ xs, c.isAlphanum = false)
    (ys : List Char) : words (xs ++ ys) = words ys := by
  induction xs with
  | nil => rfl
  | cons c rest ih =>
    obtain ⟨hc, hrest⟩ := List.forall_mem_cons.mp h
    have hsplit := words_append_cons hc [] (rest ++ ys)
    rw [List.nil_append] at hsplit
    rw [List.cons_append, hsplit, ih hrest]
    rfl

/-- What is outside words adds none behind a text, and ends none that would go on. -/
theorem words_append_of_back (xs : List Char) {ys : List Char}
    (h : ∀ c ∈ ys, c.isAlphanum = false) : words (xs ++ ys) = words xs := by
  cases ys with
  | nil => rw [List.append_nil]
  | cons c rest =>
    obtain ⟨hc, hrest⟩ := List.forall_mem_cons.mp h
    have hnone : words rest = [] := by
      have hempty := words_append_of_front hrest []
      rwa [List.append_nil] at hempty
    rw [words_append_cons hc, hnone, List.append_nil]

/-! ## Trimmed names -/

/-- No blank of any kind, in ASCII or beyond, is a letter or a digit. Blanks are given by ranges of
code points, and none of these meets the ranges of letters and digits. -/
theorem isAlphanum_of_isSpace {c : Char} (h : isSpace c = true) : c.isAlphanum = false := by
  rw [Bool.eq_false_iff]
  intro hc
  rw [isAlphanum_iff] at hc
  simp only [isSpace, inRanges, spaceRanges, List.any_cons, List.any_nil, Bool.or_false,
    Bool.or_eq_true, Bool.and_eq_true, decide_eq_true_eq] at h
  omega

/-- What is trimmed in front is blanks, which are in no word. -/
theorem words_trimStart (cs : List Char) : words (trimStart cs) = words cs := by
  have hfront : ∀ c ∈ cs.takeWhile isSpace, c.isAlphanum = false := fun c hc =>
    isAlphanum_of_isSpace (List.all_eq_true.mp List.all_takeWhile c hc)
  have hall := words_append_of_front hfront (trimStart cs)
  rwa [trimStart, List.takeWhile_append_dropWhile, eq_comm] at hall

/-- What is trimmed at the end is blanks as well, seen from behind. -/
theorem words_trimEnd (cs : List Char) : words (trimEnd cs) = words cs := by
  have hback : ∀ c ∈ (cs.reverse.takeWhile isSpace).reverse, c.isAlphanum = false := fun c hc =>
    isAlphanum_of_isSpace (List.all_eq_true.mp List.all_takeWhile c (List.mem_reverse.mp hc))
  have hall := words_append_of_back (trimEnd cs) hback
  rwa [trimEnd, ← List.reverse_append, List.takeWhile_append_dropWhile, List.reverse_reverse,
    eq_comm] at hall

/-- **Trimming loses no word** and changes none: blanks are outside of words, and at the ends
of a text there are only blanks to trim. -/
theorem words_trim (cs : List Char) : words (trim cs) = words cs := by
  rw [trim, words_trimEnd, words_trimStart]

/-- So a name is spelled alike with blanks around it and without them. -/
theorem pascalCase_trim (name : String) :
    pascalCase (String.ofList (trim name.toList)) = pascalCase name := by
  rw [pascalCase, pascalCase, String.toList_ofList, pascal, pascal, words_trim]

end Shapewright.Name
