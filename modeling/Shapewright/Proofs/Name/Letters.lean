import Shapewright.Name.Casing
import Shapewright.Proofs.Name.Characters

/-!
# What casing keeps

A spelling changes the case of letters and what stands between words, and
nothing else: the letters and digits of the text are all there, in their order.
Texts with different letters therefore have different spellings.

Main statements:

* `flatten_words`, `flatten_humps` — cutting a text into words and words into
  parts loses none of them.
* `letters_snake` — nor does the spelling that is put together from the parts.
-/

namespace Shapewright.Name

/-- The letters and digits of a text in order, lower-cased. -/
def letters (cs : List Char) : List Char := (cs.filter Char.isAlphanum).map Char.toLower

/-- Letters and digits are gathered from the front. -/
@[simp] theorem letters_append (xs ys : List Char) :
    letters (xs ++ ys) = letters xs ++ letters ys := by
  simp [letters]

/-- What is no letter or digit leaves no trace. -/
theorem letters_cons_of_not {c : Char} (h : c.isAlphanum = false) (cs : List Char) :
    letters (c :: cs) = letters cs := by
  simp [letters, h]

/-- Digits are not changed by lower case. -/
theorem letters_of_isDigit {cs : List Char} (h : ∀ c ∈ cs, c.isDigit = true) :
    letters cs = cs := by
  have hall : ∀ c ∈ cs, c.isAlphanum = true := by
    intro c hc
    rw [Char.isAlphanum, h c hc, Bool.or_true]
  rw [letters, List.filter_eq_self.mpr hall]
  calc cs.map Char.toLower = cs.map id :=
        List.map_congr_left fun c hc => toLower_of_isDigit (h c hc)
    _ = cs := List.map_id cs

/-- Lower-casing before or after makes no difference. -/
theorem letters_map_toLower (cs : List Char) : letters (cs.map Char.toLower) = letters cs := by
  have hclass : Char.isAlphanum ∘ Char.toLower = Char.isAlphanum := funext isAlphanum_toLower
  have hcase : Char.toLower ∘ Char.toLower = Char.toLower := funext toLower_toLower
  rw [letters, letters, List.filter_map, hclass, List.map_map, hcase]

/-- What is no letter or digit may be left out before. -/
theorem letters_filter (cs : List Char) : letters (cs.filter Char.isAlphanum) = letters cs := by
  rw [letters, letters, List.filter_filter]
  simp

/-! ## Words -/

/-- Splitting keeps the letters and digits in order and drops everything else. -/
theorem flatten_splitWords (cs : List Char) :
    (splitWords cs).flatten = cs.filter Char.isAlphanum := by
  induction cs with
  | nil => rfl
  | cons c rest ih =>
    -- a letter goes to the first word, and anything else closes it
    rw [splitWords]
    by_cases hc : c.isAlphanum = true
    · rw [if_pos hc, List.filter_cons_of_pos hc, ← ih]
      cases splitWords rest with
      | nil => rfl
      | cons word others => rfl
    · rw [if_neg hc, List.filter_cons_of_neg hc, List.flatten_cons, ih, List.nil_append]

/-- **Words lose no letter and no digit.** They are what is left of a text without everything
else, cut at the places where something was left out; only empty words are dropped. -/
theorem flatten_words (cs : List Char) : (words cs).flatten = cs.filter Char.isAlphanum := by
  rw [words, List.flatten_filter_not_isEmpty, flatten_splitWords]

/-! ## Parts of words -/

/-- There is always a part that the character before belongs to. -/
theorem humpsAfter_ne_nil (previous : Char) (cs : List Char) : humpsAfter previous cs ≠ [] := by
  cases cs with
  | nil => simp [humpsAfter]
  | cons c rest =>
    rw [humpsAfter]
    split
    · simp
    · split <;> simp

/-- Cutting a word loses nothing but case; where it is cut does not matter. The induction is on what
follows, whatever came before it. -/
theorem flatten_humpsAfter (previous : Char) (cs : List Char) :
    (humpsAfter previous cs).flatten = cs.map Char.toLower := by
  induction cs generalizing previous with
  | nil => rfl
  | cons c rest ih =>
    have hrest := ih c
    rw [humpsAfter]
    cases h : humpsAfter c rest with
    | nil => exact absurd h (humpsAfter_ne_nil c rest)
    | cons hump others =>
      rw [h, List.flatten_cons] at hrest
      -- a character begins a hump or goes on with one, and is kept either way
      dsimp only
      split <;> simp [← hrest]

/-- A word is cut into humps without a loss, but for the case of its letters. -/
theorem flatten_humps (cs : List Char) : (humps cs).flatten = cs.map Char.toLower := by
  cases cs with
  | nil => rfl
  | cons c rest =>
    have hrest := flatten_humpsAfter c rest
    rw [humps]
    cases h : humpsAfter c rest with
    | nil => exact absurd h (humpsAfter_ne_nil c rest)
    | cons hump others =>
      rw [h, List.flatten_cons] at hrest
      simp [← hrest]

/-- All words of a text are cut into parts without a loss. -/
theorem flatten_flatMap_humps (ws : List (List Char)) :
    (ws.flatMap humps).flatten = ws.flatten.map Char.toLower := by
  induction ws with
  | nil => rfl
  | cons w ws ih =>
    rw [List.flatMap_cons, List.flatten_append, flatten_humps, ih, List.flatten_cons,
      List.map_append]

/-! ## Spellings -/

/-- The underscore that mends a text is no letter. -/
theorem letters_finish (cs : List Char) : letters (finish cs) = letters cs := by
  cases cs with
  | nil => rfl
  | cons c rest =>
    rw [finish]
    split
    · exact letters_cons_of_not rfl _
    · rfl

/-- Underscores between the parts are no letters. -/
theorem letters_intercalate (parts : List (List Char)) :
    letters (List.intercalate ['_'] parts) = letters parts.flatten := by
  induction parts with
  | nil => rfl
  | cons part others ih =>
    cases others with
    | nil => simp
    | cons next more =>
      have hsep : letters ['_'] = [] := rfl
      rw [List.intercalate_cons_cons, letters_append, letters_append, ih, hsep, List.append_nil,
        ← letters_append]
      rfl

/-- **Snake case keeps all letters and digits**, in order and in lower case. Cutting into
humps, joining them and mending the result add underscores and nothing else. -/
theorem letters_snake (cs : List Char) : letters (snake cs) = letters cs := by
  rw [snake, letters_finish, letters_intercalate, flatten_flatMap_humps, flatten_words,
    letters_map_toLower, letters_filter]

end Shapewright.Name
