import Mathlib.Data.List.Basic
import Shapewright.Proofs.Name.Blanks
import Shapewright.Proofs.Name.Humps

/-!
# Spellings as projections

Each spelling sends all texts to the names of one grammar, and leaves the names of that
grammar alone. So to spell a name again changes nothing, and a text is a name in a casing
exactly if it is its own spelling. Pascal case and camel case differ in the case of the
first letter only, and each of them can be told from the other.

All letters and digits here are those of ASCII.

Main definitions:

* `Joined` — the names of Pascal case and of camel case, by what their first letter is.
* `Parted` — the names of snake case.

Main results:

* `pascal_eq_self_iff`, `camel_eq_self_iff`, `snake_eq_self_iff` — the names of a grammar
  are those that the spelling leaves alone.
* `spellings_are_projections` — the spellings are names of their grammars, keep those, and
  the two joined ones absorb each other.
-/

namespace Shapewright.Name

/-! ## The grammars -/

/-- A name in one piece: letters and digits, of which the first is a letter that `isFirst`
admits; or a digit and more of them behind an underscore; or an underscore alone. -/
inductive Joined (isFirst : Char → Bool) : List Char → Prop where
  | blank : Joined isFirst ['_']
  | digit {c : Char} {rest : List Char} (hc : c.isDigit = true)
      (hrest : ∀ d ∈ rest, d.isAlphanum = true) : Joined isFirst ('_' :: c :: rest)
  | letter {c : Char} {rest : List Char} (hc : isFirst c = true)
      (hrest : ∀ d ∈ rest, d.isAlphanum = true) : Joined isFirst (c :: rest)

/-- A part of a name in snake case: there are characters in it, all of them lower-case
letters and digits. -/
def IsPart (part : List Char) : Prop :=
  part ≠ [] ∧ ∀ c ∈ part, c.isLower = true ∨ c.isDigit = true

/-- What stands in front of a part that begins a name: an underscore if it begins with a
digit. -/
def lead (part : List Char) : List Char :=
  if part.head?.any Char.isDigit then ['_'] else []

/-- A name of parts with an underscore between any two of them, behind another one if the
first part begins with a digit; or an underscore alone. -/
inductive Parted : List Char → Prop where
  | blank : Parted ['_']
  | parts {first : List Char} {others : List (List Char)}
      (h : ∀ part ∈ first :: others, IsPart part) :
      Parted (lead first ++ List.intercalate ['_'] (first :: others))

/-! ## Words of names -/

/-- Letters and digits with nothing between them are one word. -/
theorem words_of_isAlphanum {cs : List Char} (hne : cs ≠ [])
    (h : ∀ c ∈ cs, c.isAlphanum = true) : words cs = [cs] := by
  have hsplit (ds : List Char) (hds : ∀ c ∈ ds, c.isAlphanum = true) : splitWords ds = [ds] := by
    induction ds with
    | nil => rfl
    | cons d rest ih =>
      obtain ⟨hd, hrest⟩ := List.forall_mem_cons.mp hds
      rw [splitWords, if_pos hd, ih hrest]
  rw [words, hsplit cs h, List.filter_cons_of_pos (by simpa using hne)]
  rfl

/-- An underscore in front is in no word. -/
theorem words_underscore_cons (cs : List Char) : words ('_' :: cs) = words cs := by
  have hunderscore : ∀ c ∈ ['_'], c.isAlphanum = false := List.forall_mem_singleton.mpr rfl
  exact words_append_of_front hunderscore cs

/-- Words that have been joined by underscores are found again, since each is letters and
digits throughout. -/
theorem words_intercalate {parts : List (List Char)}
    (h : ∀ part ∈ parts, part ≠ [] ∧ ∀ c ∈ part, c.isAlphanum = true) :
    words (List.intercalate ['_'] parts) = parts := by
  induction parts with
  | nil => rfl
  | cons part more ih =>
    obtain ⟨⟨hne, hpart⟩, hmore⟩ := List.forall_mem_cons.mp h
    cases more with
    | nil =>
      rw [List.intercalate_singleton]
      exact words_of_isAlphanum hne hpart
    | cons next others =>
      -- the underscore ends the first part, which is a word as it is
      rw [List.intercalate_cons_cons, List.append_assoc, List.singleton_append,
        words_append_cons (by decide), words_of_isAlphanum hne hpart, ih hmore,
        List.singleton_append]

/-! ## Joined names -/

/-- What `finish` makes of letters and digits that begin with the right kind of letter. -/
theorem joined_finish {isFirst : Char → Bool} {cs : List Char}
    (hall : ∀ c ∈ cs, c.isAlphanum = true)
    (hfirst : ∀ c, cs.head? = some c → isFirst c = true ∨ c.isDigit = true) :
    Joined isFirst (finish cs) := by
  cases cs with
  | nil => exact .blank
  | cons c rest =>
    have hrest := (List.forall_mem_cons.mp hall).2
    rw [finish]
    -- a digit has got an underscore in front of it, and a letter is the one that was asked for
    split
    · next hdigit => exact .digit hdigit hrest
    · next hdigit => exact .letter ((hfirst c rfl).resolve_right hdigit) hrest

/-- Pascal case spells names in one piece that begin with a capital. -/
theorem joined_pascal (cs : List Char) : Joined Char.isUpper (pascal cs) :=
  joined_finish (fun _ hc => isAlphanum_of_mem_flatMap_upperFirst hc) fun _ hc =>
    isUpper_or_isDigit_of_head?_flatMap_upperFirst hc

/-- Only the first letter is changed: that of Pascal case is an upper-case one. -/
theorem joined_lowerFirst {cs : List Char} (h : Joined Char.isUpper cs) :
    Joined Char.isLower (lowerFirst cs) := by
  cases h with
  | blank => exact .blank
  | digit hc hrest => exact .digit hc hrest
  | letter hc hrest => exact .letter (isLower_toLower_of_isUpper hc) hrest

/-- Camel case spells names in one piece that begin with a small letter. -/
theorem joined_camel (cs : List Char) : Joined Char.isLower (camel cs) :=
  joined_lowerFirst (joined_pascal cs)

/-- The one word of a name that begins with a letter is capitalized. -/
theorem pascal_letter {c : Char} {rest : List Char} (hc : c.isAlphanum = true)
    (hdigit : c.toUpper.isDigit = false) (hrest : ∀ d ∈ rest, d.isAlphanum = true) :
    pascal (c :: rest) = c.toUpper :: rest := by
  have hwords : words (c :: rest) = [c :: rest] :=
    words_of_isAlphanum (List.cons_ne_nil c rest) (List.forall_mem_cons.mpr ⟨hc, hrest⟩)
  rw [pascal, hwords, List.flatMap_singleton, upperFirst, finish, if_neg (by rw [hdigit]; decide)]

/-- Where there is no word, the underscore that stands for none is left alone. -/
theorem pascal_blank : pascal ['_'] = ['_'] := rfl

/-- A digit behind its underscore is left where it is: the word begins with the digit, and the
underscore is put in front again. -/
theorem pascal_digit {c : Char} {rest : List Char} (hc : c.isDigit = true)
    (hrest : ∀ d ∈ rest, d.isAlphanum = true) : pascal ('_' :: c :: rest) = '_' :: c :: rest := by
  have hwords : words ('_' :: c :: rest) = [c :: rest] := by
    rw [words_underscore_cons]
    exact words_of_isAlphanum (List.cons_ne_nil c rest)
      (List.forall_mem_cons.mpr ⟨isAlphanum_of_isDigit hc, hrest⟩)
  rw [pascal, hwords, List.flatMap_singleton, upperFirst, toUpper_of_isDigit hc, finish,
    if_pos hc]

/-- **A name of the grammar is left alone by Pascal case**, one form of the grammar after the
other. -/
theorem pascal_of_joined {cs : List Char} (h : Joined Char.isUpper cs) : pascal cs = cs := by
  cases h with
  | blank => exact pascal_blank
  | digit hc hrest => exact pascal_digit hc hrest
  | letter hc hrest =>
    have hupper := toUpper_of_isUpper hc
    rw [pascal_letter (isAlphanum_of_isUpper hc) (by rw [hupper]; exact not_isDigit_of_isUpper hc)
      hrest, hupper]

/-- What camel case did to a name of Pascal case is undone. -/
theorem pascal_lowerFirst {cs : List Char} (h : Joined Char.isUpper cs) :
    pascal (lowerFirst cs) = cs := by
  cases h with
  | blank => exact pascal_blank
  | digit hc hrest => exact pascal_digit hc hrest
  | @letter c rest hc hrest =>
    have hback := toUpper_toLower_of_isUpper hc
    have hletter : c.toLower.isAlphanum = true :=
      (isAlphanum_toLower c).trans (isAlphanum_of_isUpper hc)
    rw [lowerFirst, pascal_letter hletter (by rw [hback]; exact not_isDigit_of_isUpper hc) hrest,
      hback]

/-- **A name of the grammar is left alone by camel case.** Pascal case changes its first letter, and
camel case changes that back. -/
theorem camel_of_joined {cs : List Char} (h : Joined Char.isLower cs) : camel cs = cs := by
  cases h with
  | blank => rfl
  | digit hc hrest =>
    rw [camel, pascal_digit hc hrest]
    rfl
  | @letter c rest hc hrest =>
    -- the first letter is put in upper case and back again
    have hback := toLower_toUpper_of_isLower hc
    have hdigit : c.toUpper.isDigit = false := by
      rw [← isDigit_toLower, hback]
      exact not_isDigit_of_isLower hc
    rw [camel, pascal_letter (isAlphanum_of_isLower hc) hdigit hrest, lowerFirst, hback]

/-- **The names of Pascal case are those that it leaves alone.** One direction is that
whatever it makes is of the grammar, and the other that it leaves names of the grammar as they
are. -/
theorem pascal_eq_self_iff (cs : List Char) : pascal cs = cs ↔ Joined Char.isUpper cs :=
  ⟨fun h => h ▸ joined_pascal cs, pascal_of_joined⟩

/-- **The names of camel case are those that it leaves alone**, for the same two reasons. -/
theorem camel_eq_self_iff (cs : List Char) : camel cs = cs ↔ Joined Char.isLower cs :=
  ⟨fun h => h ▸ joined_camel cs, camel_of_joined⟩

/-- Pascal case loses nothing that camel case tells. -/
theorem camel_pascal (cs : List Char) : camel (pascal cs) = camel cs := by
  rw [camel, camel, pascal_of_joined (joined_pascal cs)]

/-- Nor does camel case lose anything that Pascal case tells. -/
theorem pascal_camel (cs : List Char) : pascal (camel cs) = pascal cs :=
  pascal_lowerFirst (joined_pascal cs)

/-! ## Parted names -/

/-- A hump is a part of a name in snake case: it is not empty, and has digits and small
letters only. -/
theorem isPart_of_mem_allHumps {cs hump : List Char} (h : hump ∈ allHumps cs) : IsPart hump := by
  refine ⟨(isAlphanum_of_mem_allHumps h).1, fun c hc => ?_⟩
  have hletter : c ∈ letters cs := by
    rw [← flatten_allHumps]
    exact List.mem_flatten.mpr ⟨hump, h, hc⟩
  obtain ⟨d, hd, rfl⟩ := List.mem_map.mp hletter
  exact isLower_or_isDigit_toLower (List.mem_filter.mp hd).2

/-- A part is a word, with no separator in it. -/
theorem IsPart.isAlphanum {part : List Char} (h : IsPart part) :
    ∀ c ∈ part, c.isAlphanum = true := by
  intro c hc
  rcases h.2 c hc with hlower | hdigit
  · exact isAlphanum_of_isLower hlower
  · exact isAlphanum_of_isDigit hdigit

/-- The underscore that mends the joined parts is the one in front of the first part. -/
theorem finish_intercalate {first : List Char} (hfirst : first ≠ [])
    (others : List (List Char)) :
    finish (List.intercalate ['_'] (first :: others)) =
      lead first ++ List.intercalate ['_'] (first :: others) := by
  obtain ⟨c, rest, rfl⟩ := List.exists_cons_of_ne_nil hfirst
  rw [Text.intercalate_head_cons, finish, lead, List.head?_cons, Option.any_some]
  split <;> rfl

/-- Snake case spells names of parts, which are the humps of the text. -/
theorem parted_snake (cs : List Char) : Parted (snake cs) := by
  rw [snake_eq_finish]
  cases hhumps : allHumps cs with
  | nil => exact .blank
  | cons first others =>
    have hparts : ∀ part ∈ first :: others, IsPart part := fun part hpart =>
      isPart_of_mem_allHumps (hhumps ▸ hpart)
    rw [finish_intercalate (hparts first List.mem_cons_self).1]
    exact .parts hparts

/-- No part begins where there is no upper-case letter, so that digits and small letters are a
single hump, whatever is in front. -/
theorem humpsAfter_of_isPart (previous : Char) {cs : List Char}
    (h : ∀ c ∈ cs, c.isLower = true ∨ c.isDigit = true) : humpsAfter previous cs = [cs] := by
  induction cs generalizing previous with
  | nil => rfl
  | cons c rest ih =>
    obtain ⟨hc, hrest⟩ := List.forall_mem_cons.mp h
    have hupper := not_isUpper_of_isLower_or_isDigit hc
    have hlower : c.toLower = c := hc.elim toLower_of_isLower toLower_of_isDigit
    -- both kinds of boundaries are at a capital
    have hboundary : isBoundary previous c rest = false := by
      rw [isBoundary, hupper, Bool.false_and]
    rw [humpsAfter, ih c hrest]
    dsimp only
    rw [hboundary, hlower]
    rfl

/-- A part is its own only hump: without capitals nothing is cut off. -/
theorem humps_of_isPart {part : List Char} (h : IsPart part) : humps part = [part] := by
  obtain ⟨hne, hall⟩ := h
  cases part with
  | nil => exact absurd rfl hne
  | cons c rest =>
    obtain ⟨hc, hrest⟩ := List.forall_mem_cons.mp hall
    have hlower : c.toLower = c := hc.elim toLower_of_isLower toLower_of_isDigit
    rw [humps, humpsAfter_of_isPart c hrest]
    dsimp only
    rw [hlower]

/-- The humps of parts that are joined, whatever is not in a word in front of them. -/
theorem allHumps_intercalate {front : List Char} (hfront : ∀ c ∈ front, c.isAlphanum = false)
    {parts : List (List Char)} (h : ∀ part ∈ parts, IsPart part) :
    allHumps (front ++ List.intercalate ['_'] parts) = parts := by
  have hwords : words (front ++ List.intercalate ['_'] parts) = parts := by
    rw [words_append_of_front hfront]
    exact words_intercalate fun part hpart => ⟨(h part hpart).1, (h part hpart).isAlphanum⟩
  calc allHumps (front ++ List.intercalate ['_'] parts) = parts.flatMap humps := by
        rw [allHumps, hwords]
    _ = parts.flatMap fun part => [part] :=
        List.flatMap_congr fun part hpart => humps_of_isPart (h part hpart)
    _ = parts := List.flatMap_singleton' parts

/-- The underscore in front of a leading digit belongs to no word. -/
theorem isAlphanum_of_mem_lead {part : List Char} :
    ∀ c ∈ lead part, c.isAlphanum = false := by
  unfold lead
  split
  · exact List.forall_mem_singleton.mpr rfl
  · nofun

/-- **A name of parts is left alone by snake case**: its words are the parts, these are their own
humps, and they are joined as they were. -/
theorem snake_of_parted {cs : List Char} (h : Parted cs) : snake cs = cs := by
  cases h with
  | blank => rfl
  | @parts first others h =>
    rw [snake_eq_finish, allHumps_intercalate isAlphanum_of_mem_lead h,
      finish_intercalate (h first List.mem_cons_self).1]

/-- No name in snake case has a capital in it. -/
theorem Parted.isUpper {cs : List Char} (h : Parted cs) : ∀ c ∈ cs, c.isUpper = false := by
  have hunderscore : Char.isUpper '_' = false := by decide
  intro c hc
  cases h with
  | blank =>
    rw [List.mem_singleton.mp hc]
    exact hunderscore
  | @parts first others h =>
    -- a character is the underscore in front, one between parts, or one of a part
    rcases List.mem_append.mp hc with hlead | hjoined
    · unfold lead at hlead
      split at hlead
      · rw [List.mem_singleton.mp hlead]
        exact hunderscore
      · exact absurd hlead List.not_mem_nil
    · rcases Text.mem_intercalate hjoined with hseparator | hpart
      · rw [List.mem_singleton.mp hseparator]
        exact hunderscore
      · obtain ⟨part, hmem, hcpart⟩ := List.mem_flatten.mp hpart
        exact not_isUpper_of_isLower_or_isDigit ((h part hmem).2 c hcpart)

/-- **The names of snake case are those that it leaves alone**: parts in lower case, with one
underscore between any two, and one in front of a leading digit. -/
theorem snake_eq_self_iff (cs : List Char) : snake cs = cs ↔ Parted cs :=
  ⟨fun h => h ▸ parted_snake cs, snake_of_parted⟩

/-! ## Texts -/

/-- The spelled texts are names of their grammars. -/
theorem joined_pascalCase (s : String) : Joined Char.isUpper (pascalCase s).toList := by
  rw [pascalCase, String.toList_ofList]
  exact joined_pascal s.toList

theorem joined_camelCase (s : String) : Joined Char.isLower (camelCase s).toList := by
  rw [camelCase, String.toList_ofList]
  exact joined_camel s.toList

theorem parted_snakeCase (s : String) : Parted (snakeCase s).toList := by
  rw [snakeCase, String.toList_ofList]
  exact parted_snake s.toList

/-- A text is its own spelling exactly if it is a name of the grammar of that spelling. -/
theorem pascalCase_eq_self_iff (s : String) : pascalCase s = s ↔ Joined Char.isUpper s.toList := by
  rw [← pascal_eq_self_iff, pascalCase, ← String.toList_inj, String.toList_ofList]

theorem camelCase_eq_self_iff (s : String) : camelCase s = s ↔ Joined Char.isLower s.toList := by
  rw [← camel_eq_self_iff, camelCase, ← String.toList_inj, String.toList_ofList]

theorem snakeCase_eq_self_iff (s : String) : snakeCase s = s ↔ Parted s.toList := by
  rw [← snake_eq_self_iff, snakeCase, ← String.toList_inj, String.toList_ofList]

/-- **The spellings are projections onto their grammars.** Whatever the text, each spelling
of it is a name of its grammar, and the names that a spelling leaves alone are exactly those
of its grammar; so spelling twice is spelling once. Between Pascal case and camel case it
does not matter which of the two the text was spelled in before. -/
theorem spellings_are_projections (s : String) :
    (Joined Char.isUpper (pascalCase s).toList ∧ Joined Char.isLower (camelCase s).toList ∧
      Parted (snakeCase s).toList) ∧
    ((pascalCase s = s ↔ Joined Char.isUpper s.toList) ∧
      (camelCase s = s ↔ Joined Char.isLower s.toList) ∧
      (snakeCase s = s ↔ Parted s.toList)) ∧
    (pascalCase (pascalCase s) = pascalCase s ∧ camelCase (camelCase s) = camelCase s ∧
      snakeCase (snakeCase s) = snakeCase s) ∧
    pascalCase (camelCase s) = pascalCase s ∧ camelCase (pascalCase s) = camelCase s := by
  refine ⟨⟨joined_pascalCase s, joined_camelCase s, parted_snakeCase s⟩,
    ⟨pascalCase_eq_self_iff s, camelCase_eq_self_iff s, snakeCase_eq_self_iff s⟩,
    ⟨?_, ?_, ?_⟩, ?_, ?_⟩
  · exact (pascalCase_eq_self_iff _).mpr (joined_pascalCase s)
  · exact (camelCase_eq_self_iff _).mpr (joined_camelCase s)
  · exact (snakeCase_eq_self_iff _).mpr (parted_snakeCase s)
  · rw [pascalCase, camelCase, String.toList_ofList, pascal_camel, pascalCase]
  · rw [camelCase, pascalCase, String.toList_ofList, camel_pascal, camelCase]

end Shapewright.Name
