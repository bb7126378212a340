import Shapewright.Proofs.Name.Humps

/-!
# How spelled names end

An underscore in a spelled name stands in front of a digit or between letters and
digits, or it is all there is. Nothing spelled is therefore what putting an underscore
behind a keyword yields, and getting out of the way of keywords never makes two names
one.

Main definitions:

* `Name.EndsClean` — the name is not another one with an underscore behind it.

Main results:

* `endsClean_snakeCase`, `endsClean_camelCase` — spelled names end like that.
* `suffixIfReserved_eq_iff` — such names stay apart when keywords are suffixed.
-/

namespace Shapewright.Name

/-- Nothing stands in front of an underscore at the end. -/
def EndsClean (name : String) : Prop := ∀ front, name = front ++ "_" → front = ""

/-- The same of the characters of a name, which is what the spellings are proved about. -/
theorem endsClean_iff {name : String} :
    EndsClean name ↔ ∀ front, name.toList = front ++ ['_'] → front = [] := by
  constructor
  · intro h front hname
    have hfront := h (String.ofList front) <| String.toList_injective <| by
      rw [hname, String.toList_append, String.toList_ofList]
      rfl
    rw [← String.toList_ofList (l := front), hfront]
    rfl
  · rintro h front rfl
    exact String.toList_injective (h front.toList String.toList_append)

/-! ## Spelled names -/

/-- **Snake case ends clean.** It is an underscore alone, or it ends in a letter or digit,
since underscores are only put between humps and in front. -/
theorem endsClean_snakeCase (key : String) : EndsClean (snakeCase key) := by
  rw [endsClean_iff, snakeCase, String.toList_ofList]
  intro front hfront
  rcases getLast?_snake key.toList with hlone | ⟨c, hlast, hc⟩
  · rw [hlone] at hfront
    rcases List.append_eq_singleton_iff.mp hfront.symm with ⟨hempty, -⟩ | ⟨-, hlast⟩
    · exact hempty
    · cases hlast
  · rw [hfront, List.getLast?_concat] at hlast
    obtain rfl : '_' = c := Option.some.inj hlast
    exact absurd hc (by decide)

/-- Behind its first character, Pascal case is letters and digits: the underscore that mends
it is only put in front. -/
theorem isAlphanum_of_mem_tail_pascal (cs : List Char) :
    ∀ c ∈ (pascal cs).tail, c.isAlphanum = true := by
  have hall : ∀ c ∈ (words cs).flatMap upperFirst, c.isAlphanum = true := fun _ hc =>
    isAlphanum_of_mem_flatMap_upperFirst hc
  intro c hc
  rw [pascal] at hc
  cases hwords : (words cs).flatMap upperFirst with
  | nil =>
    rw [hwords] at hc
    exact absurd hc List.not_mem_nil
  | cons d rest =>
    rw [hwords] at hc hall
    rw [finish] at hc
    -- either nothing has been put in front, or the tail is the joined words as they are
    split at hc
    · exact hall c hc
    · exact hall c (List.mem_cons_of_mem d hc)

/-- Behind the first character nothing is changed. -/
theorem tail_lowerFirst (cs : List Char) : (lowerFirst cs).tail = cs.tail := by
  cases cs <;> rfl

/-- A name ends clean if there are only letters and digits behind its first character: an
underscore at its end would have to be all of it. -/
theorem endsClean_of_tail {name : String} (h : ∀ c ∈ name.toList.tail, c.isAlphanum = true) :
    EndsClean name := by
  rw [endsClean_iff]
  intro front hfront
  cases front with
  | nil => rfl
  | cons c rest =>
    rw [hfront] at h
    exact absurd (h '_' (by simp)) (by decide)

/-- **Camel case ends clean**, since the words stand in it with nothing between them, and no
word is empty. -/
theorem endsClean_camelCase (key : String) : EndsClean (camelCase key) := by
  apply endsClean_of_tail
  rw [camelCase, String.toList_ofList, camel, tail_lowerFirst]
  exact isAlphanum_of_mem_tail_pascal key.toList

/-! ## Keywords -/

/-- Names that end clean stay apart when keywords among them are suffixed. A suffixed keyword
would only meet a name that ends in the suffix. -/
theorem suffixIfReserved_eq_iff {keywords : List String} (hkeywords : "" ∉ keywords)
    {name other : String} (hname : EndsClean name) (hother : EndsClean other) :
    suffixIfReserved name keywords = suffixIfReserved other keywords ↔ name = other := by
  -- a keyword with its suffix is no name that ends clean
  have hsuffixed {word plain : String} (hplain : EndsClean plain)
      (hword : keywords.contains word = true) : word ++ "_" ≠ plain := by
    intro h
    rw [hplain word h.symm] at hword
    exact hkeywords (List.contains_iff_mem.mp hword)
  constructor
  · intro h
    unfold suffixIfReserved at h
    split at h <;> split at h
    · exact String.append_left_inj "_" |>.mp h
    · next hword _ => exact absurd h (hsuffixed hother hword)
    · next hword => exact absurd h.symm (hsuffixed hname hword)
    · exact h
  · rintro rfl
    rfl

end Shapewright.Name
