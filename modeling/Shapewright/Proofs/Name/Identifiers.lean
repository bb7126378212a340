import Shapewright.Proofs.Name.Forms

/-!
# Spelled names as identifiers

An identifier consists of letters, digits and underscores and does not begin with a
digit. Every spelling of a text is one, whatever the text: where its letters and digits
would begin with a digit, or where there are none, an underscore stands in front.
A keyword with an underscore behind it is one as well.

Main definitions:

* `NoneSuffixed` — no keyword is another name with an underscore behind it.

Main results:

* `isTypeName_iff` — what an identifier is, by its characters.
* `isTypeName_snakeCase`, `isTypeName_camelCase`.
* `exists_cons_of_isPropertyName`, `isPropertyName_of_isTypeName` — what may stand as a property
  name without quotes.
* `isTypeName_suffixIfReserved`, `suffixIfReserved_not_mem` — getting out of the way of
  keywords yields identifiers that are no keywords.
* `suffixIfReserved_mem_iff` — but maybe other words that are to be avoided.
-/

namespace Shapewright.Name

/-! ## Characters -/

/-- What may begin a name is what may be in one, less the digits. -/
theorem isNameStart_iff {c : Char} :
    isNameStart c = true ↔ isNameChar c = true ∧ c.isDigit = false := by
  have hunderscore : Char.isDigit '_' = false := by decide
  -- a letter is no digit by its code point
  have hletter (h : c.isAlpha = true) : c.isDigit = false := by
    rw [Bool.eq_false_iff, ne_eq, isDigit_iff]
    have hcase : (c.isUpper || c.isLower) = true := h
    rw [Bool.or_eq_true, isUpper_iff, isLower_iff] at hcase
    omega
  rw [isNameStart, isNameChar, Char.isAlphanum]
  simp only [Bool.or_eq_true, beq_iff_eq]
  constructor
  · rintro (halpha | rfl)
    · exact ⟨Or.inl (Or.inl halpha), hletter halpha⟩
    · exact ⟨Or.inr rfl, hunderscore⟩
  · rintro ⟨(halpha | hdigit) | hc, hnot⟩
    · exact Or.inl halpha
    · exact absurd (hdigit.symm.trans hnot) (by decide)
    · exact Or.inr hc

/-! ## Identifiers -/

/-- An identifier is made of letters, digits and underscores, and there is a first
character, which is no digit. -/
theorem isTypeName_iff {cs : List Char} :
    isTypeName cs = true ↔
      (∀ c ∈ cs, isNameChar c = true) ∧ ∃ c, cs.head? = some c ∧ c.isDigit = false := by
  cases cs with
  | nil => simp [isTypeName]
  | cons c rest =>
    rw [isTypeName, Bool.and_eq_true, isNameStart_iff, List.all_eq_true, List.forall_mem_cons]
    constructor
    · rintro ⟨⟨hc, hdigit⟩, hrest⟩
      exact ⟨⟨hc, hrest⟩, c, rfl, hdigit⟩
    · rintro ⟨⟨hc, hrest⟩, d, hd, hdigit⟩
      obtain rfl : c = d := Option.some.inj hd
      exact ⟨⟨hc, hdigit⟩, hrest⟩

/-- What may stand in a name may be put behind an identifier. -/
theorem isTypeName_append {cs ds : List Char} (hcs : isTypeName cs = true)
    (hds : ∀ c ∈ ds, isNameChar c = true) : isTypeName (cs ++ ds) = true := by
  rw [isTypeName_iff] at hcs ⊢
  obtain ⟨hall, c, hhead, hdigit⟩ := hcs
  constructor
  · intro d hd
    rcases List.mem_append.mp hd with hd | hd
    · exact hall d hd
    · exact hds d hd
  · -- there is a first character already
    exact ⟨c, by rw [List.head?_append, hhead, Option.some_or], hdigit⟩

/-- The form of declared names is stricter. -/
theorem isTypeName_of_isDeclaredForm {cs : List Char} (h : isDeclaredForm cs = true) :
    isTypeName cs = true := by
  have hall := isNameChar_of_isDeclaredForm h
  obtain ⟨c, rest, rfl, hfirst, -⟩ := exists_cons_of_isDeclaredForm h
  refine isTypeName_iff.mpr ⟨hall, c, rfl, ?_⟩
  rcases hfirst with hupper | rfl
  · exact not_isDigit_of_isUpper hupper
  · decide

/-! ## Spellings -/

/-- What is mended begins with a character other than a digit. -/
theorem exists_head?_finish (cs : List Char) :
    ∃ c, (finish cs).head? = some c ∧ c.isDigit = false := by
  cases cs with
  | nil => exact ⟨'_', rfl, by decide⟩
  | cons c rest =>
    rw [finish]
    split
    · exact ⟨'_', rfl, by decide⟩
    · next hdigit => exact ⟨c, rfl, Bool.eq_false_iff.mpr hdigit⟩

/-- **Snake case is an identifier**, whatever the text: mending sees to the first character,
and there is always one. -/
theorem isTypeName_snakeCase (key : String) : isTypeName (snakeCase key).toList = true := by
  rw [snakeCase, String.toList_ofList, isTypeName_iff]
  exact ⟨fun c hc => isNameChar_of_mem_snake hc, exists_head?_finish _⟩

/-- Camel case is an identifier, too: changing the case of the first letter does not make a
digit of it. -/
theorem isTypeName_camelCase (key : String) : isTypeName (camelCase key).toList = true := by
  have hpascal : isTypeName (pascal key.toList) = true :=
    isTypeName_of_isDeclaredForm (isDeclaredForm_pascal key.toList)
  rw [isTypeName_iff] at hpascal ⊢
  -- only the first character is another one than in Pascal case
  obtain ⟨-, c, hhead, hdigit⟩ := hpascal
  refine ⟨isNameChar_camelCase key, c.toLower, ?_, ?_⟩
  · rw [camelCase, String.toList_ofList, camel]
    cases hcs : pascal key.toList with
    | nil => rw [hcs] at hhead; cases hhead
    | cons d rest =>
      rw [hcs] at hhead
      obtain rfl : d = c := Option.some.inj hhead
      rfl
  · rw [isDigit_toLower]
    exact hdigit

/-! ## Property names -/

/-- A property name that needs no quotes begins with no digit, and is made of the characters
of identifiers and of dollar signs. -/
theorem exists_cons_of_isPropertyName {key : String} (h : isPropertyName key = true) :
    ∃ c rest, key.toList = c :: rest ∧ c.isDigit = false ∧
      ∀ d ∈ key.toList, isNameChar d = true ∨ d = '$' := by
  rw [isPropertyName] at h
  split at h
  · cases h
  · next c rest hkey =>
    rw [Bool.and_eq_true, Bool.or_eq_true, beq_iff_eq] at h
    obtain ⟨hfirst, hrest⟩ := h
    refine ⟨c, rest, hkey, ?_, hkey ▸ List.forall_mem_cons.mpr ⟨?_, fun d hd => ?_⟩⟩
    · rcases hfirst with hstart | rfl
      · exact (isNameStart_iff.mp hstart).2
      · decide
    · exact hfirst.imp_left fun hstart => (isNameStart_iff.mp hstart).1
    · simpa using List.all_eq_true.mp hrest d hd

/-- The names of types are among those of properties, which may have dollar signs too. -/
theorem isPropertyName_of_isTypeName {name : String} (h : isTypeName name.toList = true) :
    isPropertyName name = true := by
  rw [isPropertyName]
  split
  · next hname =>
    rw [hname] at h
    cases h
  · next c rest hname =>
    rw [hname, isTypeName, Bool.and_eq_true, List.all_eq_true] at h
    obtain ⟨hstart, hrest⟩ := h
    rw [hstart, Bool.true_or, Bool.true_and, List.all_eq_true]
    exact fun d hd => by rw [hrest d hd, Bool.true_or]

/-! ## Keywords -/

/-- A keyword gets an underscore, and any other name is left alone. -/
theorem suffixIfReserved_of_mem {name : String} {keywords : List String} (h : name ∈ keywords) :
    suffixIfReserved name keywords = name ++ "_" := by
  rw [suffixIfReserved, if_pos (List.contains_iff_mem.mpr h)]

theorem suffixIfReserved_of_not_mem {name : String} {keywords : List String}
    (h : name ∉ keywords) : suffixIfReserved name keywords = name := by
  rw [suffixIfReserved, if_neg fun hmem => h (List.contains_iff_mem.mp hmem)]

/-- Getting out of the way of keywords keeps identifiers what they are. -/
theorem isTypeName_suffixIfReserved {name : String} (h : isTypeName name.toList = true)
    (keywords : List String) : isTypeName (suffixIfReserved name keywords).toList = true := by
  by_cases hmem : name ∈ keywords
  · rw [suffixIfReserved_of_mem hmem, String.toList_append]
    exact isTypeName_append h (List.all_eq_true.mp (by decide))
  · rw [suffixIfReserved_of_not_mem hmem]
    exact h

/-- No keyword ends in an underscore, unless it is one. -/
def NoneSuffixed (keywords : List String) : Prop :=
  ∀ word ∈ keywords, word ≠ "" ∧ (word.toList.getLast? = some '_' → word = "_")

instance (keywords : List String) : Decidable (NoneSuffixed keywords) :=
  inferInstanceAs (Decidable (∀ word ∈ keywords, _ ∧ _))

/-- The suffix then leads out of the keywords. -/
theorem suffixIfReserved_not_mem {keywords : List String} (hkeywords : NoneSuffixed keywords)
    (name : String) : suffixIfReserved name keywords ∉ keywords := by
  by_cases hmem : name ∈ keywords
  · rw [suffixIfReserved_of_mem hmem]
    intro hword
    have hlast : (name ++ "_").toList.getLast? = some '_' := by
      rw [String.toList_append]
      exact List.getLast?_concat
    -- a keyword with a suffix would have to be the underscore
    have hsuffixed : name ++ "_" = "" ++ "_" := (hkeywords _ hword).2 hlast
    exact (hkeywords name hmem).1 ((String.append_left_inj "_").mp hsuffixed)
  · rw [suffixIfReserved_of_not_mem hmem]
    exact hmem

/-- Of words that do not end in an underscore, getting out of the way of keywords yields just
those that are no keywords themselves. -/
theorem suffixIfReserved_mem_iff {keywords words : List String}
    (hwords : ∀ word ∈ words, word.toList.getLast? ≠ some '_') (name : String) :
    suffixIfReserved name keywords ∈ words ↔
      name ∈ words.filter fun word => !keywords.contains word := by
  rw [List.mem_filter, Bool.not_eq_true', ← Bool.not_eq_true, List.contains_iff_mem]
  by_cases hmem : name ∈ keywords
  · -- a keyword ends in an underscore afterwards, as no word of the list does
    rw [suffixIfReserved_of_mem hmem]
    constructor
    · intro hsuffixed
      refine absurd ?_ (hwords _ hsuffixed)
      rw [String.toList_append]
      exact List.getLast?_concat
    · rintro ⟨-, hfree⟩
      exact absurd hmem hfree
  · rw [suffixIfReserved_of_not_mem hmem]
    exact ⟨fun hname => ⟨hname, hmem⟩, And.left⟩

end Shapewright.Name
