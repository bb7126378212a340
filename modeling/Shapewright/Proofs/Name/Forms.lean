import Shapewright.Name.Identifier
import Shapewright.Proofs.Name.Letters
import Shapewright.Proofs.Text.Joining

/-!
# Forms of spelled names

Whatever the text, a spelling consists of letters, digits and underscores.

Main definitions:

* `isDeclaredForm` — an upper-case letter or an underscore, then letters, digits
  and underscores: the form of the names that types are declared under.

Main results:

* `isDeclaredForm_pascal` — Pascal case has this form.
* `isDeclaredForm_append` — so does a name of this form with anything of letters,
  digits and underscores behind it.
* `isNameChar_pascalCase`, `isNameChar_camelCase`, `isNameChar_snakeCase` — the characters of
  all spellings.
-/

namespace Shapewright.Name

/-- The form of declared names. -/
def isDeclaredForm : List Char → Bool
  | [] => false
  | c :: rest => (c.isUpper || c == '_') && rest.all isNameChar

/-- Letters and digits may stand in a name. -/
theorem isNameChar_of_isAlphanum {c : Char} (h : c.isAlphanum = true) : isNameChar c = true := by
  rw [isNameChar, h, Bool.true_or]

/-- A name has letters and digits, and underscores besides. -/
theorem isNameChar_iff {c : Char} :
    isNameChar c = true ↔ c.isAlphanum = true ∨ c = '_' := by
  rw [isNameChar, Bool.or_eq_true, beq_iff_eq]

theorem isAlphanum_of_isUpper {c : Char} (h : c.isUpper = true) : c.isAlphanum = true := by
  rw [isUpper_iff] at h
  exact isAlphanum_iff.mpr (Or.inl h)

/-! ## Declared names -/

/-- Only the first character of a declared name is told from the others, so that anything that may
stand in a name may be put behind one: a suffix, a number, another name. -/
theorem isDeclaredForm_append {cs ds : List Char} (hcs : isDeclaredForm cs = true)
    (hds : ds.all isNameChar = true) : isDeclaredForm (cs ++ ds) = true := by
  cases cs with
  | nil => exact absurd hcs Bool.false_ne_true
  | cons c rest =>
    rw [isDeclaredForm, Bool.and_eq_true] at hcs
    rw [List.cons_append, isDeclaredForm, List.all_append, hcs.1, hcs.2, hds]
    rfl

/-- What a declared name begins with, and what follows. -/
theorem exists_cons_of_isDeclaredForm {cs : List Char} (h : isDeclaredForm cs = true) :
    ∃ c rest, cs = c :: rest ∧ (c.isUpper = true ∨ c = '_') ∧
      ∀ d ∈ rest, isNameChar d = true := by
  cases cs with
  | nil => exact absurd h Bool.false_ne_true
  | cons c rest =>
    rw [isDeclaredForm, Bool.and_eq_true, Bool.or_eq_true, beq_iff_eq, List.all_eq_true] at h
    exact ⟨c, rest, rfl, h⟩

/-- What all of a declared name is made of, its first character included. -/
theorem isNameChar_of_isDeclaredForm {cs : List Char} (h : isDeclaredForm cs = true) :
    ∀ c ∈ cs, isNameChar c = true := by
  obtain ⟨c, rest, rfl, hfirst, hrest⟩ := exists_cons_of_isDeclaredForm h
  refine List.forall_mem_cons.mpr ⟨?_, hrest⟩
  rcases hfirst with hupper | rfl
  · exact isNameChar_of_isAlphanum (isAlphanum_of_isUpper hupper)
  · exact isNameChar_iff.mpr (Or.inr rfl)

/-! ## Pascal case -/

/-- A word is made of letters and digits, and there are some. -/
theorem isAlphanum_of_mem_words {cs word : List Char} (h : word ∈ words cs) :
    word ≠ [] ∧ ∀ c ∈ word, c.isAlphanum = true := by
  constructor
  · have hnonempty := (List.mem_filter.mp h).2
    intro hnil
    rw [hnil] at hnonempty
    exact absurd hnonempty (by decide)
  · intro c hc
    have hmem : c ∈ (words cs).flatten := List.mem_flatten.mpr ⟨word, h, hc⟩
    rw [flatten_words] at hmem
    exact (List.mem_filter.mp hmem).2

/-- Capitalizing a word leaves it one. -/
theorem isAlphanum_of_mem_upperFirst {word : List Char}
    (h : ∀ c ∈ word, c.isAlphanum = true) : ∀ c ∈ upperFirst word, c.isAlphanum = true := by
  intro d hd
  cases word with
  | nil => exact absurd hd List.not_mem_nil
  | cons c rest =>
    rcases List.mem_cons.mp hd with rfl | hmem
    · rw [isAlphanum_toUpper]
      exact h c List.mem_cons_self
    · exact h d (List.mem_cons_of_mem c hmem)

/-- A letter in upper case is an upper-case letter; a digit is left alone. -/
theorem isUpper_or_isDigit_toUpper {c : Char} (h : c.isAlphanum = true) :
    c.toUpper.isUpper = true ∨ c.toUpper.isDigit = true := by
  rw [isAlphanum_iff] at h
  rw [isUpper_iff, isDigit_iff, toNat_toUpper]
  split <;> omega

/-- Letters and digits that do not begin in lower case are mended to the form of declared
names: a digit in front gets an underscore, and so does a text without any. -/
theorem isDeclaredForm_finish {cs : List Char} (hall : ∀ c ∈ cs, c.isAlphanum = true)
    (hfirst : ∀ c, cs.head? = some c → c.isUpper = true ∨ c.isDigit = true) :
    isDeclaredForm (finish cs) = true := by
  cases cs with
  | nil => rfl
  | cons c rest =>
    have hrest : rest.all isNameChar = true := List.all_eq_true.mpr fun d hd =>
      isNameChar_of_isAlphanum (hall d (List.mem_cons_of_mem c hd))
    rw [finish]
    -- a digit at the beginning gets an underscore in front of it, and a letter is in upper case
    split
    · rw [isDeclaredForm, List.all_cons, hrest,
        isNameChar_of_isAlphanum (hall c List.mem_cons_self)]
      rfl
    · next hdigit =>
      have hupper := (hfirst c rfl).resolve_right hdigit
      rw [isDeclaredForm, hupper, hrest]
      rfl

/-- So capitalized words that follow each other are letters and digits throughout. -/
theorem isAlphanum_of_mem_flatMap_upperFirst {cs : List Char} {c : Char}
    (h : c ∈ (words cs).flatMap upperFirst) : c.isAlphanum = true := by
  obtain ⟨word, hword, hmem⟩ := List.mem_flatMap.mp h
  exact isAlphanum_of_mem_upperFirst (isAlphanum_of_mem_words hword).2 c hmem

/-- The first character of capitalized words is that of the first word, in upper case; a digit
has no case and stays one. -/
theorem isUpper_or_isDigit_of_head?_flatMap_upperFirst {cs : List Char} {c : Char}
    (h : ((words cs).flatMap upperFirst).head? = some c) :
    c.isUpper = true ∨ c.isDigit = true := by
  cases hws : words cs with
  | nil =>
    rw [hws] at h
    exact absurd h (by simp)
  | cons word others =>
    have hmem : word ∈ words cs := by
      rw [hws]
      exact List.mem_cons_self
    have hword := isAlphanum_of_mem_words hmem
    -- no word is empty, so the first word is where the text begins
    cases word with
    | nil => exact absurd rfl hword.1
    | cons d rest =>
      rw [hws] at h
      obtain rfl : d.toUpper = c := Option.some.inj h
      exact isUpper_or_isDigit_toUpper (hword.2 d List.mem_cons_self)

/-- **Pascal case has the form of declared names**, whatever the text: a text without letters and
digits is spelled as an underscore, and one that begins with a digit has one in front. -/
theorem isDeclaredForm_pascal (cs : List Char) : isDeclaredForm (pascal cs) = true :=
  isDeclaredForm_finish (fun _ hc => isAlphanum_of_mem_flatMap_upperFirst hc) fun _ hc =>
    isUpper_or_isDigit_of_head?_flatMap_upperFirst hc

/-! ## First letters, and camel case -/

/-- Changing the case does not lead out of names, be it that of one character or of the first
letter of a name. -/
theorem isNameChar_toLower {c : Char} (h : isNameChar c = true) : isNameChar c.toLower = true := by
  rcases isNameChar_iff.mp h with hletter | rfl
  · exact isNameChar_of_isAlphanum ((isAlphanum_toLower c).trans hletter)
  · decide

theorem isNameChar_toUpper {c : Char} (h : isNameChar c = true) : isNameChar c.toUpper = true := by
  rcases isNameChar_iff.mp h with hletter | rfl
  · exact isNameChar_of_isAlphanum ((isAlphanum_toUpper c).trans hletter)
  · decide

theorem isNameChar_of_mem_upperFirst {cs : List Char} (h : ∀ c ∈ cs, isNameChar c = true) :
    ∀ c ∈ upperFirst cs, isNameChar c = true := by
  cases cs with
  | nil => exact h
  | cons c rest =>
    obtain ⟨hc, hrest⟩ := List.forall_mem_cons.mp h
    exact List.forall_mem_cons.mpr ⟨isNameChar_toUpper hc, hrest⟩

theorem isNameChar_of_mem_lowerFirst {cs : List Char} (h : ∀ c ∈ cs, isNameChar c = true) :
    ∀ c ∈ lowerFirst cs, isNameChar c = true := by
  cases cs with
  | nil => exact h
  | cons c rest =>
    obtain ⟨hc, hrest⟩ := List.forall_mem_cons.mp h
    exact List.forall_mem_cons.mpr ⟨isNameChar_toLower hc, hrest⟩

/-- **Spellings have nothing in them but letters, digits and underscores**: Pascal case, and
camel case and snake case below. -/
theorem isNameChar_pascalCase (key : String) :
    ∀ c ∈ (pascalCase key).toList, isNameChar c = true := by
  rw [pascalCase, String.toList_ofList]
  exact isNameChar_of_isDeclaredForm (isDeclaredForm_pascal _)

theorem isNameChar_camelCase (key : String) :
    ∀ c ∈ (camelCase key).toList, isNameChar c = true := by
  rw [camelCase, String.toList_ofList, camel]
  exact isNameChar_of_mem_lowerFirst (isNameChar_of_isDeclaredForm (isDeclaredForm_pascal _))

/-! ## Snake case -/

/-- Mending adds an underscore at most. -/
theorem mem_finish {c : Char} {cs : List Char} (h : c ∈ finish cs) : c = '_' ∨ c ∈ cs := by
  cases cs with
  | nil => exact Or.inl (List.mem_singleton.mp h)
  | cons d rest =>
    rw [finish] at h
    split at h
    · exact List.mem_cons.mp h
    · exact Or.inr h

/-- Snake case is made of the letters and digits of the text, of the underscores between its parts,
and of the one that may be in front. -/
theorem isNameChar_of_mem_snake {c : Char} {cs : List Char} (h : c ∈ snake cs) :
    isNameChar c = true := by
  rw [isNameChar_iff]
  rcases mem_finish h with rfl | hparts
  · exact Or.inr rfl
  · rcases Text.mem_intercalate hparts with hsep | hletter
    · exact Or.inr (List.mem_singleton.mp hsep)
    · rw [flatten_flatMap_humps, flatten_words] at hletter
      obtain ⟨d, hd, rfl⟩ := List.mem_map.mp hletter
      rw [isAlphanum_toLower]
      exact Or.inl (List.mem_filter.mp hd).2

theorem isNameChar_snakeCase (key : String) :
    ∀ c ∈ (snakeCase key).toList, isNameChar c = true := by
  intro c hc
  rw [snakeCase, String.toList_ofList] at hc
  exact isNameChar_of_mem_snake hc

end Shapewright.Name
