import Shapewright.Proofs.Name.Grammars

/-!
# Where snake case breaks

A spelling keeps the letters and digits of a text, in order and but for case, and adds
nothing but underscores. In snake case an underscore stands exactly where a new part
begins: between letters or digits with something else between them in the text, before an
upper-case letter that follows a lower-case one or a digit, and before the last upper-case
letter of several if a lower-case one follows it.

A place in a spelled name is told by the letters and digits in front of it: those are the
ones in front of the same place in the text.

Main definitions:

* `IsNext` — two letters or digits of a text with none between them.
* `Breaks` — a new part begins at the second of them.

Main results:

* `exists_snake_next` — what stands between them in snake case.
* `casing_keeps_letters_and_breaks` — no spelling loses a letter or digit, and snake case
  has underscores where parts begin, one in front of a leading digit, and no others.
-/

namespace Shapewright.Name

/-! ## Places in a text -/

/-- Behind `front`, the text has a letter or digit `c`, then `gap` without any, then the next
one `d`, then `back`. -/
structure IsNext (cs front : List Char) (c : Char) (gap : List Char) (d : Char)
    (back : List Char) : Prop where
  text : cs = front ++ c :: (gap ++ d :: back)
  first : c.isAlphanum = true
  apart : ∀ e ∈ gap, e.isAlphanum = false
  second : d.isAlphanum = true

/-- A new part begins at `d`. -/
def Breaks (c : Char) (gap : List Char) (d : Char) (back : List Char) : Prop :=
  gap ≠ [] ∨ ((c.isLower = true ∨ c.isDigit = true) ∧ d.isUpper = true) ∨
    (c.isUpper = true ∧ d.isUpper = true ∧ back.head?.any Char.isLower = true)

instance (c : Char) (gap : List Char) (d : Char) (back : List Char) :
    Decidable (Breaks c gap d back) :=
  inferInstanceAs (Decidable (_ ∨ _ ∨ _))

/-- What snake case puts between `c` and `d`. -/
def mark (c : Char) (gap : List Char) (d : Char) (back : List Char) : List Char :=
  if Breaks c gap d back then ['_'] else []

/-! ## Letters -/

/-- A name without its underscores, in lower case. -/
def unmarked (name : String) : List Char :=
  (name.toList.filter fun c => c != '_').map Char.toLower

/-- In a spelling there is nothing but letters, digits and underscores, so that leaving out the
underscores leaves the letters and digits. -/
theorem unmarked_eq_letters {name : String} (h : ∀ c ∈ name.toList, isNameChar c = true) :
    unmarked name = letters name.toList := by
  have hclass : ∀ c ∈ name.toList, (c != '_') = c.isAlphanum := by
    intro c hc
    rcases isNameChar_iff.mp (h c hc) with hletter | rfl
    · rw [hletter, bne_iff_ne]
      rintro rfl
      exact absurd hletter (by decide)
    · rfl
  rw [unmarked, letters, List.filter_congr hclass]

/-- A letter or digit is kept, in lower case. -/
theorem letters_cons {c : Char} (h : c.isAlphanum = true) (cs : List Char) :
    letters (c :: cs) = c.toLower :: letters cs := by
  rw [letters, List.filter_cons_of_pos h, List.map_cons, letters]

/-- Letters that are in lower case already, with nothing else between, are left as they are. -/
theorem letters_letters (cs : List Char) : letters (letters cs) = letters cs := by
  have hspelled : letters cs = (cs.filter Char.isAlphanum).map Char.toLower := rfl
  rw [hspelled, letters_map_toLower, letters_filter, hspelled]

/-- The case of a character does not matter. -/
theorem letters_cons_congr {c d : Char} (hclass : d.isAlphanum = c.isAlphanum)
    (hcase : d.toLower = c.toLower) (cs : List Char) : letters (d :: cs) = letters (c :: cs) := by
  by_cases hc : c.isAlphanum = true
  · rw [letters_cons (hclass.trans hc), letters_cons hc, hcase]
  · rw [Bool.not_eq_true] at hc
    rw [letters_cons_of_not (hclass.trans hc), letters_cons_of_not hc]

/-- Letters are not told apart by case, so capitalizing a word changes none of them, and
taking a capital away does not either. -/
theorem letters_upperFirst (cs : List Char) : letters (upperFirst cs) = letters cs := by
  cases cs with
  | nil => rfl
  | cons c rest => exact letters_cons_congr (isAlphanum_toUpper c) (toLower_toUpper c) rest

theorem letters_lowerFirst (cs : List Char) : letters (lowerFirst cs) = letters cs := by
  cases cs with
  | nil => rfl
  | cons c rest => exact letters_cons_congr (isAlphanum_toLower c) (toLower_toLower c) rest

/-- All words may be capitalized, and none of their letters is another one. -/
theorem letters_flatMap_upperFirst (ws : List (List Char)) :
    letters (ws.flatMap upperFirst) = letters ws.flatten := by
  induction ws with
  | nil => rfl
  | cons w ws ih =>
    rw [List.flatMap_cons, letters_append, letters_upperFirst, ih, List.flatten_cons,
      letters_append]

/-- Pascal case keeps all letters and digits. The underscore that may be put in front is neither. -/
theorem letters_pascal (cs : List Char) : letters (pascal cs) = letters cs := by
  rw [pascal, letters_finish, letters_flatMap_upperFirst, flatten_words, letters_filter]

/-- So does camel case, which differs from it in the case of one letter. -/
theorem letters_camel (cs : List Char) : letters (camel cs) = letters cs := by
  rw [camel, letters_lowerFirst, letters_pascal]

/-! ## Parts of a text -/

/-- Snake case without the underscore that mends it. -/
def joinedHumps (cs : List Char) : List Char := List.intercalate ['_'] (allHumps cs)

/-- Snake case is the joined parts of a text, mended in front where they begin with a digit. -/
theorem snake_eq_finish_joinedHumps (cs : List Char) : snake cs = finish (joinedHumps cs) := rfl

/-- The joined parts have the letters and digits of the text, and underscores besides. -/
theorem letters_joinedHumps (cs : List Char) : letters (joinedHumps cs) = letters cs := by
  rw [joinedHumps, letters_intercalate, flatten_allHumps, letters_letters]

/-- What is in front of the first letter or digit leaves no trace. -/
theorem joinedHumps_append_of_front {xs : List Char} (h : ∀ c ∈ xs, c.isAlphanum = false)
    (ys : List Char) : joinedHumps (xs ++ ys) = joinedHumps ys := by
  rw [joinedHumps, allHumps, words_append_of_front h, joinedHumps, allHumps]

/-- What is put between two letters is none itself. -/
theorem letters_mark (c : Char) (gap : List Char) (d : Char) (back : List Char) :
    letters (mark c gap d back) = [] := by
  unfold mark
  split <;> rfl

/-- A word goes on in front of a letter or digit, with whatever letters and digits precede
it; what follows it in the word is what follows it in the text. -/
theorem exists_words_cons {d : Char} (hd : d.isAlphanum = true) (back : List Char) :
    ∃ word others, words (d :: back) = (d :: word) :: others ∧
      (∀ c : Char, c.isAlphanum = true → words (c :: d :: back) = (c :: d :: word) :: others) ∧
      word.head? = back.head?.filter Char.isAlphanum := by
  obtain ⟨word, others, hsplit⟩ := List.exists_cons_of_ne_nil (splitWords_ne_nil back)
  -- a letter or digit is put in front of the first word, and is the only thing there if that is
  -- empty
  have hcons {c : Char} (hc : c.isAlphanum = true) {cs first : List Char}
      (hcs : splitWords cs = first :: others) : splitWords (c :: cs) = (c :: first) :: others := by
    rw [splitWords, if_pos hc, hcs]
  -- words are split off first and the empty ones left out afterwards; this one is not empty
  have hkept (c : Char) (first : List Char) :
      ((c :: first) :: others).filter (!·.isEmpty) =
        (c :: first) :: others.filter (!·.isEmpty) := rfl
  refine ⟨word, others.filter (!·.isEmpty), ?_, fun c hc => ?_, ?_⟩
  · rw [words, hcons hd hsplit, hkept]
  · rw [words, hcons hc (hcons hd hsplit), hkept]
  · -- the word ends where the text has something else, or at its end
    cases back with
    | nil =>
      obtain rfl : [] = word := (List.cons.inj hsplit).1
      rfl
    | cons e more =>
      rw [splitWords] at hsplit
      split at hsplit
      · next he =>
        rw [List.head?_cons, Option.filter_some, if_pos he]
        split at hsplit
        · obtain rfl : [e] = word := (List.cons.inj hsplit).1
          rfl
        · obtain rfl : e :: _ = word := (List.cons.inj hsplit).1
          rfl
      · next he =>
        obtain rfl : [] = word := (List.cons.inj hsplit).1
        rw [List.head?_cons, Option.filter_some, if_neg he]
        rfl

/-- A part is cut off in front of `d`, or goes on. -/
theorem humps_cons_cons (c d : Char) (word : List Char) :
    ∃ hump others, humps (d :: word) = (d.toLower :: hump) :: others ∧
      humps (c :: d :: word) =
        if isBoundary c d word then [c.toLower] :: (d.toLower :: hump) :: others
        else (c.toLower :: d.toLower :: hump) :: others := by
  obtain ⟨hump, others, hafter, -⟩ := exists_humpsAfter_eq_cons d word
  refine ⟨hump, others, ?_, ?_⟩
  · rw [humps, hafter]
  · rw [humps, humpsAfter, hafter]
    dsimp only
    by_cases hboundary : isBoundary c d word = true
    · rw [if_pos hboundary, if_pos hboundary]
    · rw [if_neg hboundary, if_neg hboundary]

/-- Between letters and digits of one word, parts are told by their case alone: a capital
begins one behind a small letter or a digit, and in front of a small letter. -/
theorem isBoundary_iff {c d : Char} {word back : List Char}
    (hword : word.head? = back.head?.filter Char.isAlphanum) :
    isBoundary c d word = true ↔ Breaks c [] d back := by
  -- what is in lower case goes on with the word
  have hlower : word.head?.any Char.isLower = true ↔ back.head?.any Char.isLower = true := by
    rw [hword, Option.any_eq_true, Option.any_eq_true]
    constructor
    · rintro ⟨e, he, helower⟩
      exact ⟨e, (Option.filter_eq_some_iff.mp he).1, helower⟩
    · rintro ⟨e, he, helower⟩
      exact ⟨e, Option.filter_eq_some_iff.mpr ⟨he, isAlphanum_of_isLower helower⟩, helower⟩
  unfold isBoundary Breaks
  rw [Bool.and_eq_true, Bool.or_eq_true, Bool.or_eq_true, Bool.and_eq_true, hlower]
  constructor
  · rintro ⟨hd, hcase | ⟨hc, he⟩⟩
    · exact Or.inr (Or.inl ⟨hcase, hd⟩)
    · exact Or.inr (Or.inr ⟨hc, hd, he⟩)
  · rintro (hgap | ⟨hcase, hd⟩ | ⟨hc, hd, he⟩)
    · exact absurd rfl hgap
    · exact ⟨hd, Or.inl hcase⟩
    · exact ⟨hd, Or.inr ⟨hc, he⟩⟩

/-- Joined humps begin with the first letter or digit, in lower case, and have all the others
behind it. -/
theorem exists_joinedHumps_cons {d : Char} (hd : d.isAlphanum = true) (back : List Char) :
    ∃ after, joinedHumps (d :: back) = d.toLower :: after ∧ letters after = letters back := by
  obtain ⟨word, others, hwords, -⟩ := exists_words_cons hd back
  obtain ⟨hump, more, hhumps, -⟩ := humps_cons_cons d d word
  have hjoined : joinedHumps (d :: back) =
      d.toLower :: List.intercalate ['_'] (hump :: (more ++ others.flatMap humps)) := by
    rw [joinedHumps, allHumps, hwords, List.flatMap_cons, hhumps, List.cons_append,
      Text.intercalate_head_cons]
  refine ⟨_, hjoined, ?_⟩
  -- the letters behind the first one are those of the rest
  have hletters := letters_joinedHumps (d :: back)
  rw [hjoined, letters_cons ((isAlphanum_toLower d).trans hd), letters_cons hd] at hletters
  exact (List.cons.inj hletters).2

/-- **What stands between two letters or digits that have none between them**: an underscore
if a part begins at the second, and nothing if not. Whatever else was between them is gone. -/
theorem joinedHumps_next {c d : Char} {gap : List Char} (hc : c.isAlphanum = true)
    (hgap : ∀ e ∈ gap, e.isAlphanum = false) (hd : d.isAlphanum = true) (back : List Char) :
    joinedHumps (c :: (gap ++ d :: back)) =
      c.toLower :: (mark c gap d back ++ joinedHumps (d :: back)) := by
  cases gap with
  | nil =>
    -- both are in one word, and its case decides
    obtain ⟨word, others, hwords, hlonger, hhead⟩ := exists_words_cons hd back
    obtain ⟨hump, more, hhumps, hlongerHumps⟩ := humps_cons_cons c d word
    rw [List.nil_append, joinedHumps, joinedHumps, allHumps, allHumps, hlonger c hc, hwords,
      List.flatMap_cons, List.flatMap_cons, hlongerHumps, hhumps, mark]
    by_cases hbreak : Breaks c [] d back
    · rw [if_pos hbreak, if_pos ((isBoundary_iff hhead).mpr hbreak), List.cons_append,
        List.cons_append, List.intercalate_cons_cons]
      rfl
    · rw [if_neg hbreak, if_neg fun h => hbreak ((isBoundary_iff hhead).mp h), List.nil_append,
        List.cons_append, List.cons_append, Text.intercalate_head_cons]
  | cons e rest =>
    -- a word ends at `c`
    obtain ⟨he, hrest⟩ := List.forall_mem_cons.mp hgap
    have hbreak : Breaks c (e :: rest) d back := Or.inl (List.cons_ne_nil e rest)
    have hwords : words (c :: (e :: rest ++ d :: back)) = [c] :: words (d :: back) := by
      have hcut := words_append_cons he [c] (rest ++ d :: back)
      rw [words_append_of_front hrest, words_of_isAlphanum (List.cons_ne_nil c [])
        (by simpa using hc)] at hcut
      exact hcut
    have hhumps : allHumps (d :: back) ≠ [] := by
      intro hnil
      have hletters := flatten_allHumps (d :: back)
      rw [hnil, letters_cons hd] at hletters
      cases hletters
    have hcut : allHumps (c :: (e :: rest ++ d :: back)) = [c.toLower] :: allHumps (d :: back) := by
      rw [allHumps, hwords]
      rfl
    rw [joinedHumps, hcut, List.intercalate_cons_of_ne_nil hhumps, mark, if_pos hbreak]
    rfl

/-- There is a first letter or digit, if there are any. -/
theorem exists_first_isAlphanum {cs : List Char} (h : ∃ c ∈ cs, c.isAlphanum = true) :
    ∃ gap d back, cs = gap ++ d :: back ∧ (∀ e ∈ gap, e.isAlphanum = false) ∧
      d.isAlphanum = true := by
  obtain ⟨d, hfind⟩ := Option.isSome_iff_exists.mp (List.find?_isSome.mpr h)
  obtain ⟨hd, gap, back, hcs, hgap⟩ := List.find?_eq_some_iff_append.mp hfind
  exact ⟨gap, d, back, hcs, fun e he => by simpa using hgap e he, hd⟩

/-- Up to a letter or digit, what is written is told by what is in front of it, and has its
letters and digits. The induction is on the text in front, one character at a time. -/
theorem exists_joinedHumps_append {c : Char} (hc : c.isAlphanum = true) (front rest : List Char) :
    ∃ before, joinedHumps (front ++ c :: rest) = before ++ joinedHumps (c :: rest) ∧
      letters before = letters front := by
  induction front with
  | nil => exact ⟨[], rfl, rfl⟩
  | cons b more ih =>
    obtain ⟨before, hbefore, hletters⟩ := ih
    by_cases hb : b.isAlphanum = true
    · -- the next letter or digit is `c` at the latest
      have hsome : ∃ e ∈ more ++ c :: rest, e.isAlphanum = true := ⟨c, by simp, hc⟩
      obtain ⟨gap, d, back, hsplit, hgap, hd⟩ := exists_first_isAlphanum hsome
      have hnext : joinedHumps (d :: back) = before ++ joinedHumps (c :: rest) := by
        rw [← hbefore, hsplit, joinedHumps_append_of_front hgap]
      refine ⟨b.toLower :: (mark b gap d back ++ before), ?_, ?_⟩
      · rw [List.cons_append, hsplit, joinedHumps_next hb hgap hd, hnext, List.cons_append,
          List.append_assoc]
      · rw [letters_cons ((isAlphanum_toLower b).trans hb), toLower_toLower, letters_append,
          letters_mark, List.nil_append, hletters, letters_cons hb]
    · -- anything else in front is passed over, and is no letter either
      rw [Bool.not_eq_true] at hb
      refine ⟨before, ?_, ?_⟩
      · have hblank : ∀ e ∈ [b], e.isAlphanum = false := by simpa using hb
        rw [List.cons_append, ← hbefore]
        exact joinedHumps_append_of_front hblank _
      · rw [hletters, letters_cons_of_not hb]

/-! ## Snake case -/

/-- Mending puts an underscore in front, or nothing; no letter or digit is added. -/
theorem exists_finish_eq {cs : List Char} (h : cs ≠ []) :
    ∃ front, finish cs = front ++ cs ∧ letters front = [] := by
  obtain ⟨c, rest, rfl⟩ := List.exists_cons_of_ne_nil h
  rw [finish]
  split
  · exact ⟨['_'], rfl, rfl⟩
  · exact ⟨[], rfl, rfl⟩

/-- Between a letter or digit and the next one, snake case has an underscore if a part
begins there, and nothing if not. -/
theorem exists_snake_next {cs front gap back : List Char} {c d : Char}
    (h : IsNext cs front c gap d back) :
    ∃ before after, snake cs = before ++ c.toLower :: (mark c gap d back ++ d.toLower :: after) ∧
      letters before = letters front ∧ letters after = letters back := by
  -- the place is found by what is in front of it, and read on from there
  obtain ⟨before, hbefore, hfront⟩ := exists_joinedHumps_append h.first front (gap ++ d :: back)
  obtain ⟨after, hafter, hback⟩ := exists_joinedHumps_cons h.second back
  have hjoined : joinedHumps cs =
      before ++ c.toLower :: (mark c gap d back ++ d.toLower :: after) := by
    rw [h.text, hbefore, joinedHumps_next h.first h.apart h.second, hafter]
  have hne : joinedHumps cs ≠ [] := by rw [hjoined]; simp
  obtain ⟨mended, hmended, hnone⟩ := exists_finish_eq hne
  refine ⟨mended ++ before, after, ?_, ?_, hback⟩
  · rw [snake_eq_finish_joinedHumps, hmended, hjoined, List.append_assoc]
  · rw [letters_append, hnone, List.nil_append, hfront]

/-- In front of the first letter or digit there is an underscore if it is a digit. -/
theorem exists_snake_first {cs front rest : List Char} {c : Char} (htext : cs = front ++ c :: rest)
    (hfront : ∀ e ∈ front, e.isAlphanum = false) (hc : c.isAlphanum = true) :
    ∃ after, snake cs = (if c.isDigit = true then ['_'] else []) ++ c.toLower :: after ∧
      letters after = letters rest := by
  obtain ⟨after, hafter, hletters⟩ := exists_joinedHumps_cons hc rest
  refine ⟨after, ?_, hletters⟩
  rw [snake_eq_finish_joinedHumps, htext, joinedHumps_append_of_front hfront, hafter, finish,
    isDigit_toLower]
  split <;> rfl

/-- Behind the last letter or digit there is nothing in snake case, and in front of it are all
the others. -/
theorem exists_snake_last {cs front rest : List Char} {c : Char} (htext : cs = front ++ c :: rest)
    (hc : c.isAlphanum = true) (hrest : ∀ e ∈ rest, e.isAlphanum = false) :
    ∃ before, snake cs = before ++ [c.toLower] ∧ letters before = letters front := by
  obtain ⟨before, hbefore, hfront⟩ := exists_joinedHumps_append hc front rest
  -- what is behind the letter makes no further hump
  have hlast : joinedHumps (c :: rest) = [c.toLower] := by
    have hwords : words (c :: rest) = [[c]] :=
      (words_append_of_back [c] hrest).trans
        (words_of_isAlphanum (List.cons_ne_nil c []) (by simpa using hc))
    rw [joinedHumps, allHumps, hwords]
    rfl
  have hjoined : joinedHumps cs = before ++ [c.toLower] := by rw [htext, hbefore, hlast]
  have hne : joinedHumps cs ≠ [] := by rw [hjoined]; simp
  -- an underscore may have been put in front, which is no letter
  obtain ⟨mended, hmended, hnone⟩ := exists_finish_eq hne
  refine ⟨mended ++ before, ?_, ?_⟩
  · rw [snake_eq_finish_joinedHumps, hmended, hjoined, List.append_assoc]
  · rw [letters_append, hnone, List.nil_append, hfront]

/-- Without letters and digits an underscore is all there is. -/
theorem snake_of_not_isAlphanum {cs : List Char} (h : ∀ c ∈ cs, c.isAlphanum = false) :
    snake cs = ['_'] := by
  have hnone := joinedHumps_append_of_front h []
  rw [List.append_nil] at hnone
  rw [snake_eq_finish_joinedHumps, hnone]
  rfl

/-- **No spelling loses a letter or digit, and snake case breaks where parts begin.** Without
underscores and case, each spelling is what the text has of letters and digits. In snake case
there is an underscore between a letter or digit and the next one exactly if a part begins at
the second; in front of the first one exactly if that is a digit; none behind the last one;
and an underscore alone if there are no letters and digits. -/
theorem casing_keeps_letters_and_breaks (s : String) :
    (unmarked (pascalCase s) = letters s.toList ∧ unmarked (camelCase s) = letters s.toList ∧
      unmarked (snakeCase s) = letters s.toList) ∧
    (∀ front c gap d back, IsNext s.toList front c gap d back →
      ∃ before after,
        (snakeCase s).toList =
          before ++ c.toLower :: ((if Breaks c gap d back then ['_'] else []) ++
            d.toLower :: after) ∧
        letters before = letters front ∧ letters after = letters back) ∧
    (∀ front c rest, s.toList = front ++ c :: rest → (∀ e ∈ front, e.isAlphanum = false) →
      c.isAlphanum = true →
      ∃ after,
        (snakeCase s).toList = (if c.isDigit = true then ['_'] else []) ++ c.toLower :: after ∧
        letters after = letters rest) ∧
    (∀ front c rest, s.toList = front ++ c :: rest → c.isAlphanum = true →
      (∀ e ∈ rest, e.isAlphanum = false) →
      ∃ before, (snakeCase s).toList = before ++ [c.toLower] ∧ letters before = letters front) ∧
    ((∀ c ∈ s.toList, c.isAlphanum = false) → snakeCase s = "_") := by
  -- everything below is about lists of characters
  have hsnake : (snakeCase s).toList = snake s.toList := by rw [snakeCase, String.toList_ofList]
  refine ⟨⟨?_, ?_, ?_⟩, ?_, ?_, ?_, ?_⟩
  · rw [unmarked_eq_letters (isNameChar_pascalCase s), pascalCase, String.toList_ofList,
      letters_pascal]
  · rw [unmarked_eq_letters (isNameChar_camelCase s), camelCase, String.toList_ofList,
      letters_camel]
  · rw [unmarked_eq_letters (isNameChar_snakeCase s), hsnake, letters_snake]
  · intro front c gap d back h
    rw [hsnake]
    exact exists_snake_next h
  · intro front c rest htext hfront hc
    rw [hsnake]
    exact exists_snake_first htext hfront hc
  · intro front c rest htext hc hrest
    rw [hsnake]
    exact exists_snake_last htext hc hrest
  · intro h
    rw [snakeCase, snake_of_not_isAlphanum h]

/-- The last letter of several in upper case begins a part, and so does what follows a blank. -/
theorem casing_keeps_letters_and_breaks_acronym :
    IsNext "my HTTPServer".toList "my HTT".toList 'P' [] 'S' "erver".toList ∧
      IsNext "my HTTPServer".toList "m".toList 'y' [' '] 'H' "TTPServer".toList ∧
      IsNext "my HTTPServer".toList "my H".toList 'T' [] 'T' "PServer".toList ∧
      Breaks 'P' [] 'S' "erver".toList ∧ Breaks 'y' [' '] 'H' "TTPServer".toList ∧
      ¬ Breaks 'T' [] 'T' "PServer".toList ∧
      ∃ before after, (snakeCase "my HTTPServer").toList = before ++ 'p' :: '_' :: 's' :: after ∧
        letters before = "myhtt".toList ∧ letters after = "erver".toList := by
  have hserver : IsNext "my HTTPServer".toList "my HTT".toList 'P' [] 'S' "erver".toList :=
    ⟨rfl, rfl, nofun, rfl⟩
  have hbreak : Breaks 'P' [] 'S' "erver".toList := by decide
  obtain ⟨before, after, hspelled, hbefore, hafter⟩ :=
    (casing_keeps_letters_and_breaks "my HTTPServer").2.1 _ _ _ _ _ hserver
  rw [if_pos hbreak] at hspelled
  have hblank : ∀ e ∈ [' '], e.isAlphanum = false := List.forall_mem_singleton.mpr rfl
  exact ⟨hserver, ⟨rfl, rfl, hblank, rfl⟩, ⟨rfl, rfl, nofun, rfl⟩, hbreak, by decide,
    by decide, before, after, hspelled, hbefore, hafter⟩

end Shapewright.Name
