import Shapewright.Proofs.Name.Forms
import Shapewright.Proofs.Text.Lines

/-!
# What snake case tells

Snake case joins the humps of a text, the parts that its case and its separators cut
it into, in lower case. The underscores show where a hump ends, so that snake case tells
the humps of a text and nothing else about it: two texts are spelled alike exactly if
they have the same humps.

Main definitions:

* `Name.allHumps` — the humps of all words of a text.

Main results:

* `snake_eq_iff` — snake case and humps determine each other.
* `letters_eq_of_allHumps_eq` — texts with the same humps have the same letters and
  digits, but for case.
* `getLast?_snake` — snake case ends in a letter or digit, if there is one.
-/

namespace Shapewright.Name

/-- The humps of all words, lower-cased. -/
def allHumps (cs : List Char) : List (List Char) := (words cs).flatMap humps

/-- Snake case is made of the humps, joined by underscores and mended in front. -/
theorem snake_eq_finish (cs : List Char) :
    snake cs = finish (List.intercalate ['_'] (allHumps cs)) := rfl

/-! ## Humps -/

/-- Only the first part may be empty: it goes on with the hump of the character before. -/
theorem exists_humpsAfter_eq_cons (previous : Char) (cs : List Char) :
    ∃ hump others, humpsAfter previous cs = hump :: others ∧ ∀ other ∈ others, other ≠ [] := by
  induction cs generalizing previous with
  | nil => exact ⟨[], [], rfl, fun _ h => absurd h List.not_mem_nil⟩
  | cons c rest ih =>
    obtain ⟨hump, others, hrest, hothers⟩ := ih c
    rw [humpsAfter, hrest]
    dsimp only
    split
    · -- a new hump begins at the character, and so is not empty
      refine ⟨[], (c.toLower :: hump) :: others, rfl, ?_⟩
      rw [List.forall_mem_cons]
      exact ⟨List.cons_ne_nil _ _, hothers⟩
    · exact ⟨c.toLower :: hump, others, rfl, hothers⟩

/-- No hump is empty: there is a character at which it begins. -/
theorem ne_nil_of_mem_humps {word hump : List Char} (h : hump ∈ humps word) : hump ≠ [] := by
  cases word with
  | nil => exact absurd h List.not_mem_nil
  | cons c rest =>
    obtain ⟨first, others, hrest, hothers⟩ := exists_humpsAfter_eq_cons c rest
    rw [humps, hrest] at h
    rcases List.mem_cons.mp h with rfl | hmem
    · exact List.cons_ne_nil _ _
    · exact hothers hump hmem

/-- A hump is made of letters and digits, and there are some. -/
theorem isAlphanum_of_mem_allHumps {cs hump : List Char} (h : hump ∈ allHumps cs) :
    hump ≠ [] ∧ ∀ c ∈ hump, c.isAlphanum = true := by
  constructor
  · obtain ⟨word, -, hword⟩ := List.mem_flatMap.mp h
    exact ne_nil_of_mem_humps hword
  · intro c hc
    -- the humps of a word are its letters, in lower case
    have hmem : c ∈ (allHumps cs).flatten := List.mem_flatten.mpr ⟨hump, h, hc⟩
    rw [allHumps, flatten_flatMap_humps, flatten_words] at hmem
    obtain ⟨d, hd, rfl⟩ := List.mem_map.mp hmem
    rw [isAlphanum_toLower]
    exact (List.mem_filter.mp hd).2

/-- There is no underscore in a hump, so that the one behind it shows where it ends. -/
theorem not_mem_of_mem_allHumps {cs hump : List Char} (h : hump ∈ allHumps cs) :
    hump ≠ [] ∧ '_' ∉ hump := by
  obtain ⟨hne, hall⟩ := isAlphanum_of_mem_allHumps h
  exact ⟨hne, fun hmem => absurd (hall '_' hmem) (by decide)⟩

/-- Humps leave out nothing but case and what is no letter or digit. -/
theorem flatten_allHumps (cs : List Char) : (allHumps cs).flatten = letters cs := by
  rw [allHumps, flatten_flatMap_humps, flatten_words, letters]

/-- Texts with the same humps differ in case and in separators only. -/
theorem letters_eq_of_allHumps_eq {cs ds : List Char} (h : allHumps cs = allHumps ds) :
    letters cs = letters ds := by
  rw [← flatten_allHumps, ← flatten_allHumps, h]

/-! ## Joined parts -/

/-- Parts that are not empty are not joined to nothing. -/
theorem intercalate_cons_ne_nil {separator : Char} {part : List Char} (h : part ≠ [])
    (others : List (List Char)) : List.intercalate [separator] (part :: others) ≠ [] := by
  cases others with
  | nil =>
    rw [List.intercalate_singleton]
    exact h
  | cons next more =>
    rw [List.intercalate_cons_cons, List.append_assoc]
    exact List.append_ne_nil_of_left_ne_nil h _

/-- Parts can be told from the text that joins them, if the separator is in none and none is
empty. The induction is on the parts of one text; the first ones end at the same separator. -/
theorem intercalate_injective {separator : Char} {xs ys : List (List Char)}
    (hx : ∀ part ∈ xs, part ≠ [] ∧ separator ∉ part)
    (hy : ∀ part ∈ ys, part ≠ [] ∧ separator ∉ part)
    (h : List.intercalate [separator] xs = List.intercalate [separator] ys) : xs = ys := by
  induction xs generalizing ys with
  | nil =>
    cases ys with
    | nil => rfl
    | cons y ys => exact absurd h.symm (intercalate_cons_ne_nil (hy y List.mem_cons_self).1 ys)
  | cons x xs ih =>
    obtain ⟨⟨hxne, hxsep⟩, hxs⟩ := List.forall_mem_cons.mp hx
    cases ys with
    | nil => exact absurd h (intercalate_cons_ne_nil hxne xs)
    | cons y ys =>
      obtain ⟨⟨hyne, hysep⟩, hys⟩ := List.forall_mem_cons.mp hy
      -- whether there is a part behind the first one shows in whether there is a separator
      cases xs with
      | nil =>
        cases ys with
        | nil =>
          rw [List.intercalate_singleton, List.intercalate_singleton] at h
          rw [h]
        | cons next more =>
          rw [List.intercalate_singleton, List.intercalate_cons_cons] at h
          rw [h] at hxsep
          exact absurd (by simp) hxsep
      | cons nextX moreX =>
        cases ys with
        | nil =>
          rw [List.intercalate_singleton, List.intercalate_cons_cons] at h
          rw [← h] at hysep
          exact absurd (by simp) hysep
        | cons nextY moreY =>
          rw [List.intercalate_cons_cons, List.intercalate_cons_cons, List.append_assoc,
            List.append_assoc, List.singleton_append, List.singleton_append] at h
          obtain ⟨rfl, hrest⟩ := Text.eq_of_append_cons_eq hxsep hysep h
          rw [ih hxs hys hrest]

/-- Nor does the joined text begin with the separator. -/
theorem not_mem_head?_intercalate {separator : Char} {parts : List (List Char)}
    (h : ∀ part ∈ parts, part ≠ [] ∧ separator ∉ part) :
    separator ∉ (List.intercalate [separator] parts).head? := by
  cases parts with
  | nil => exact nofun
  | cons part others =>
    obtain ⟨hne, hnot⟩ := h part List.mem_cons_self
    obtain ⟨c, rest, rfl⟩ := List.exists_cons_of_ne_nil hne
    have hc : c ≠ separator := fun hc => hnot (hc ▸ List.mem_cons_self)
    cases others with
    | nil => simpa [List.intercalate_singleton] using hc
    | cons next more => simpa [List.intercalate_cons_cons] using hc

/-- A join ends as its last part does, if no part is empty. -/
theorem getLast?_intercalate {parts : List (List Char)} (separator : List Char)
    (h : ∀ part ∈ parts, part ≠ []) {last : List Char} (hlast : parts.getLast? = some last) :
    (List.intercalate separator parts).getLast? = last.getLast? := by
  induction parts with
  | nil => cases hlast
  | cons part others ih =>
    obtain ⟨hpart, hothers⟩ := List.forall_mem_cons.mp h
    cases others with
    | nil =>
      obtain rfl : part = last := Option.some.inj hlast
      rw [List.intercalate_singleton]
    | cons next more =>
      rw [List.getLast?_cons_cons] at hlast
      -- the last part is not the first one, so the join ends as that of the others
      have hmore := ih hothers hlast
      have hne : last ≠ [] := hothers last (List.mem_of_getLast? hlast)
      rw [List.intercalate_cons_cons, List.getLast?_append, hmore]
      rw [List.getLast?_eq_some_getLast hne, Option.some_or]

/-! ## Snake case -/

/-- The underscore that is put in front can be told, as neither text begins with one by
itself. -/
theorem finish_injective {cs ds : List Char} (hcs : '_' ∉ cs.head?) (hds : '_' ∉ ds.head?)
    (h : finish cs = finish ds) : cs = ds := by
  -- an underscore is put in front of a text, or the text is left as it is
  have hmended {es : List Char} (hes : '_' ∉ es.head?) :
      finish es = '_' :: es ∨ (finish es = es ∧ es ≠ []) := by
    cases es with
    | nil => exact Or.inl rfl
    | cons c rest =>
      rw [finish]
      split
      · exact Or.inl rfl
      · exact Or.inr ⟨rfl, List.cons_ne_nil _ _⟩
  rcases hmended hcs with hc | ⟨hc, -⟩ <;> rcases hmended hds with hd | ⟨hd, -⟩
  · rw [hc, hd] at h
    exact (List.cons.inj h).2
  · rw [hc, hd] at h
    rw [← h] at hds
    exact absurd rfl hds
  · rw [hc, hd] at h
    rw [h] at hcs
    exact absurd rfl hcs
  · rwa [hc, hd] at h

/-- Joined humps begin with a letter or digit, so that an underscore in front has been put there. -/
theorem not_mem_head?_intercalate_allHumps (cs : List Char) :
    '_' ∉ (List.intercalate ['_'] (allHumps cs)).head? :=
  not_mem_head?_intercalate fun _ => not_mem_of_mem_allHumps

/-- **Snake case tells the humps, and nothing else.** Two texts are spelled alike exactly if
they have the same humps in the same order; the underscores between humps are the only ones,
but for one in front. -/
theorem snake_eq_iff (cs ds : List Char) : snake cs = snake ds ↔ allHumps cs = allHumps ds := by
  constructor
  · intro h
    rw [snake_eq_finish, snake_eq_finish] at h
    have hjoined := finish_injective (not_mem_head?_intercalate_allHumps cs)
      (not_mem_head?_intercalate_allHumps ds) h
    exact intercalate_injective (fun _ => not_mem_of_mem_allHumps)
      (fun _ => not_mem_of_mem_allHumps) hjoined
  · intro h
    rw [snake_eq_finish, snake_eq_finish, h]

/-- Two texts have one spelling in snake case exactly if they have the same humps. -/
theorem snakeCase_eq_iff (s t : String) :
    snakeCase s = snakeCase t ↔ allHumps s.toList = allHumps t.toList := by
  rw [snakeCase, snakeCase, String.ofList_inj]
  exact snake_eq_iff s.toList t.toList

/-- Snake case ends in a letter or digit, unless there is none and it is an underscore. It
ends as its last hump does, which is not empty. -/
theorem getLast?_snake (cs : List Char) :
    snake cs = ['_'] ∨ ∃ c, (snake cs).getLast? = some c ∧ c.isAlphanum = true := by
  rw [snake_eq_finish]
  cases h : (allHumps cs).getLast? with
  | none =>
    rw [List.getLast?_eq_none_iff.mp h]
    exact Or.inl rfl
  | some last =>
    have hlast := isAlphanum_of_mem_allHumps (List.mem_of_getLast? h)
    have hjoined := getLast?_intercalate ['_']
      (fun part hpart => (isAlphanum_of_mem_allHumps hpart).1) h
    have hc := List.getLast?_eq_some_getLast hlast.1
    refine Or.inr ⟨last.getLast hlast.1, ?_, hlast.2 _ (List.getLast_mem hlast.1)⟩
    -- the underscore that may be put in front is not the last character
    cases hwhole : List.intercalate ['_'] (allHumps cs) with
    | nil =>
      rw [hwhole, hc] at hjoined
      cases hjoined
    | cons d rest =>
      rw [hwhole, hc] at hjoined
      rw [finish]
      split
      · rw [List.getLast?_cons_cons]
        exact hjoined
      · exact hjoined

end Shapewright.Name
