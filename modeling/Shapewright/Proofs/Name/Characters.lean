/-!
# Letters and digits by code point

The classes and case maps of ASCII characters, stated on code points, so that
questions about them are questions about numbers.

Main statements:

* `toNat_toLower`, `toNat_toUpper` — what changing the case does.
* `isAlphanum_toLower`, `isAlphanum_toUpper` — it stays within the class.
* `toUpper_toLower_of_isUpper`, `toLower_toUpper_of_isLower` — and can be undone.
-/

namespace Shapewright.Name

/-- The classes by their code points. They are those of ASCII alone: a letter beyond it is in
none. -/
theorem isUpper_iff {c : Char} : c.isUpper = true ↔ 65 ≤ c.toNat ∧ c.toNat ≤ 90 := by
  show decide (c.val ≥ 'A'.val ∧ c.val ≤ 'Z'.val) = true ↔ _
  simp only [decide_eq_true_eq, ge_iff_le, UInt32.le_iff_toNat_le]
  rfl

theorem isLower_iff {c : Char} : c.isLower = true ↔ 97 ≤ c.toNat ∧ c.toNat ≤ 122 := by
  show (decide (c.val ≥ 'a'.val) && decide (c.val ≤ 'z'.val)) = true ↔ _
  simp only [Bool.and_eq_true, decide_eq_true_eq, ge_iff_le, UInt32.le_iff_toNat_le]
  rfl

theorem isDigit_iff {c : Char} : c.isDigit = true ↔ 48 ≤ c.toNat ∧ c.toNat ≤ 57 := by
  simp only [Char.isDigit, Bool.and_eq_true, decide_eq_true_eq, ge_iff_le,
    UInt32.le_iff_toNat_le]
  rfl

/-- Letters and digits are in three ranges, which do not meet. -/
theorem isAlphanum_iff {c : Char} :
    c.isAlphanum = true ↔ (65 ≤ c.toNat ∧ c.toNat ≤ 90) ∨ (97 ≤ c.toNat ∧ c.toNat ≤ 122) ∨
      (48 ≤ c.toNat ∧ c.toNat ≤ 57) := by
  show ((c.isUpper || c.isLower) || c.isDigit) = true ↔ _
  rw [Bool.or_eq_true, Bool.or_eq_true, isUpper_iff, isLower_iff, isDigit_iff, or_assoc]

/-- A capital moves up by 32 code points, a small letter moves down by as many, and all else
stays where it is. -/
theorem toNat_toLower (c : Char) :
    c.toLower.toNat = if 65 ≤ c.toNat ∧ c.toNat ≤ 90 then c.toNat + 32 else c.toNat := by
  have hiff : (c.val ≥ 'A'.val ∧ c.val ≤ 'Z'.val) ↔ 65 ≤ c.toNat ∧ c.toNat ≤ 90 := by
    simp only [ge_iff_le, UInt32.le_iff_toNat_le]
    rfl
  by_cases h : c.val ≥ 'A'.val ∧ c.val ≤ 'Z'.val
  · have hlower : c.toLower = _ := dif_pos h
    have hc := hiff.mp h
    rw [if_pos hc, hlower]
    -- the sum stays far below the size of a word
    show (c.val + 32).toNat = c.val.toNat + 32
    rw [UInt32.toNat_add]
    have : c.val.toNat ≤ 90 := hc.2
    have h32 : (32 : UInt32).toNat = 32 := rfl
    omega
  · have hsame : c.toLower = c := dif_neg h
    rw [if_neg fun hc => h (hiff.mpr hc), hsame]

theorem toNat_toUpper (c : Char) :
    c.toUpper.toNat = if 97 ≤ c.toNat ∧ c.toNat ≤ 122 then c.toNat - 32 else c.toNat := by
  have hiff : ('a'.val ≤ c.val ∧ c.val ≤ 'z'.val) ↔ 97 ≤ c.toNat ∧ c.toNat ≤ 122 := by
    simp only [UInt32.le_iff_toNat_le]
    rfl
  by_cases h : 'a'.val ≤ c.val ∧ c.val ≤ 'z'.val
  · have hupper : c.toUpper = _ := dif_pos h
    have hc := hiff.mp h
    rw [if_pos hc, hupper]
    -- the difference of the cases is added as its complement
    show (c.val + 4294967264).toNat = c.val.toNat - 32
    rw [UInt32.toNat_add]
    have hlow : 97 ≤ c.val.toNat := hc.1
    have hhigh : c.val.toNat ≤ 122 := hc.2
    have hsub : (4294967264 : UInt32).toNat = 4294967264 := rfl
    omega
  · have hsame : c.toUpper = c := dif_neg h
    rw [if_neg fun hc => h (hiff.mpr hc), hsame]

/-- Changing the case leads neither into letters and digits nor out of them, in either
direction. -/
theorem isAlphanum_toLower (c : Char) : c.toLower.isAlphanum = c.isAlphanum := by
  rw [Bool.eq_iff_iff, isAlphanum_iff, isAlphanum_iff, toNat_toLower]
  split <;> omega

theorem isAlphanum_toUpper (c : Char) : c.toUpper.isAlphanum = c.isAlphanum := by
  rw [Bool.eq_iff_iff, isAlphanum_iff, isAlphanum_iff, toNat_toUpper]
  split <;> omega

/-- No letter becomes a digit, and digits have no case. -/
theorem isDigit_toLower (c : Char) : c.toLower.isDigit = c.isDigit := by
  rw [Bool.eq_iff_iff, isDigit_iff, isDigit_iff, toNat_toLower]
  split <;> omega

/-- What is in lower case stays there. -/
theorem toLower_toLower (c : Char) : c.toLower.toLower = c.toLower := by
  apply Char.toNat_inj.mp
  have hc := toNat_toLower c
  rw [toNat_toLower c.toLower, if_neg]
  split at hc <;> omega

/-- Lower case forgets what case there was before. -/
theorem toLower_toUpper (c : Char) : c.toUpper.toLower = c.toLower := by
  apply Char.toNat_inj.mp
  rw [toNat_toLower, toNat_toLower, toNat_toUpper]
  by_cases h : 97 ≤ c.toNat ∧ c.toNat ≤ 122
  · rw [if_pos h, if_pos (by omega), if_neg (by omega)]
    omega
  · rw [if_neg h]

/-- Digits have no case. -/
theorem toLower_of_isDigit {c : Char} (h : c.isDigit = true) : c.toLower = c := by
  apply Char.toNat_inj.mp
  rw [isDigit_iff] at h
  rw [toNat_toLower, if_neg (by omega)]

/-! ## Classes and cases -/

theorem isAlphanum_of_isLower {c : Char} (h : c.isLower = true) : c.isAlphanum = true := by
  rw [isLower_iff] at h
  exact isAlphanum_iff.mpr (Or.inr (Or.inl h))

theorem isAlphanum_of_isDigit {c : Char} (h : c.isDigit = true) : c.isAlphanum = true := by
  rw [isDigit_iff] at h
  exact isAlphanum_iff.mpr (Or.inr (Or.inr h))

/-- A capital is no digit, so that a name that begins with one needs no mending. -/
theorem not_isDigit_of_isUpper {c : Char} (h : c.isUpper = true) : c.isDigit = false := by
  rw [Bool.eq_false_iff, ne_eq, isDigit_iff]
  rw [isUpper_iff] at h
  omega

theorem not_isDigit_of_isLower {c : Char} (h : c.isLower = true) : c.isDigit = false := by
  rw [Bool.eq_false_iff, ne_eq, isDigit_iff]
  rw [isLower_iff] at h
  omega

/-- What may stand in a part of snake case is not in upper case. -/
theorem not_isUpper_of_isLower_or_isDigit {c : Char} (h : c.isLower = true ∨ c.isDigit = true) :
    c.isUpper = false := by
  rw [Bool.eq_false_iff, ne_eq, isUpper_iff]
  rw [isLower_iff, isDigit_iff] at h
  omega

/-- A letter in lower case is a lower-case letter; a digit is left alone. -/
theorem isLower_or_isDigit_toLower {c : Char} (h : c.isAlphanum = true) :
    c.toLower.isLower = true ∨ c.toLower.isDigit = true := by
  rw [isAlphanum_iff] at h
  rw [isLower_iff, isDigit_iff, toNat_toLower]
  split <;> omega

/-- A capital becomes a small letter. -/
theorem isLower_toLower_of_isUpper {c : Char} (h : c.isUpper = true) :
    c.toLower.isLower = true := by
  rw [isUpper_iff] at h
  rw [isLower_iff, toNat_toLower]
  split <;> omega

/-- What is not in upper case is left alone. -/
theorem toLower_of_not_isUpper {c : Char} (h : c.isUpper = false) : c.toLower = c := by
  apply Char.toNat_inj.mp
  rw [toNat_toLower, if_neg]
  rw [← isUpper_iff, h]
  decide

/-- What is in a case already is left alone by it, and digits by both. -/
theorem toLower_of_isLower {c : Char} (h : c.isLower = true) : c.toLower = c :=
  toLower_of_not_isUpper (not_isUpper_of_isLower_or_isDigit (Or.inl h))

theorem toUpper_of_isUpper {c : Char} (h : c.isUpper = true) : c.toUpper = c := by
  apply Char.toNat_inj.mp
  rw [isUpper_iff] at h
  rw [toNat_toUpper, if_neg (by omega)]

/-- Digits have no case: this is why a word that begins with one is not changed. -/
theorem toUpper_of_isDigit {c : Char} (h : c.isDigit = true) : c.toUpper = c := by
  apply Char.toNat_inj.mp
  rw [isDigit_iff] at h
  rw [toNat_toUpper, if_neg (by omega)]

/-- A capital is got back from its small letter, and a small letter from its capital. -/
theorem toUpper_toLower_of_isUpper {c : Char} (h : c.isUpper = true) : c.toLower.toUpper = c := by
  apply Char.toNat_inj.mp
  rw [isUpper_iff] at h
  rw [toNat_toUpper, toNat_toLower]
  split <;> split <;> omega

theorem toLower_toUpper_of_isLower {c : Char} (h : c.isLower = true) : c.toUpper.toLower = c := by
  apply Char.toNat_inj.mp
  rw [isLower_iff] at h
  rw [toNat_toLower, toNat_toUpper]
  split <;> split <;> omega

end Shapewright.Name
