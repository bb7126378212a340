import Mathlib.Data.Nat.Basic
import Shapewright.Text.Quoted
import Shapewright.Proofs.Name.Characters

/-!
# Reading escaped text

A text in printable ASCII is read as what stands between the quotes of a string
literal: a backslash begins an escape, which names a character by a letter or by
its code point in hexadecimal between braces.

Main definitions:

* `Text.unescape` — what a literal stands for, if it is well formed.
* `Text.literal?` — the inside of a literal up to its closing quote.

Main results:

* `unescape_escapeAscii` — escaping loses nothing.
* `isPrintable_of_mem_escapeAscii` — what escaping writes is printable ASCII, and
  so one line.
* `literal?_escapeAscii` — a quote behind it ends the literal, and none before.
-/

namespace Shapewright.Text

/-! ## Hexadecimal -/

/-- The value of a hexadecimal digit. -/
def hexValue? (c : Char) : Option Nat :=
  if 48 ≤ c.toNat ∧ c.toNat ≤ 57 then some (c.toNat - 48)
  else if 97 ≤ c.toNat ∧ c.toNat ≤ 102 then some (c.toNat - 87)
  else if 65 ≤ c.toNat ∧ c.toNat ≤ 70 then some (c.toNat - 55)
  else none

/-- A digit that has been written is read with its value. There are only sixteen of them, so
that each is looked at by itself. -/
theorem hexValue?_digitChar {n : Nat} (h : n < 16) : hexValue? n.digitChar = some n := by
  have hall : ∀ k : Fin 16, hexValue? (Nat.digitChar k) = some k.val := by decide
  exact hall ⟨n, h⟩

/-- What holds of all digits holds of the digits of a number. -/
theorem all_toDigits {p : Char → Bool} (h : ∀ k : Fin 16, p (Nat.digitChar k) = true) (n : Nat) :
    (Nat.toDigits 16 n).all p = true := by
  induction n using Nat.strongRecOn with
  | _ n ih =>
    by_cases hn : n < 16
    · rw [Nat.toDigits_of_lt_base hn, List.all_cons, h ⟨n, hn⟩]
      rfl
    · have hlow := h ⟨n % 16, Nat.mod_lt n (by omega)⟩
      rw [Nat.toDigits_of_base_le (by omega) (by omega), List.all_append, ih (n / 16) (by omega),
        List.all_cons, hlow]
      rfl

/-- A code point has at most six digits, as many as an escape may have. -/
theorem length_codePoint_le (c : Char) : (codePoint c).length ≤ 6 := by
  rw [codePoint, Nat.length_toDigits_le_iff (by omega) (by omega)]
  rcases c.valid with hlow | ⟨-, hhigh⟩
  · have : c.toNat < 0xd800 := hlow
    omega
  · have : c.toNat < 0x110000 := hhigh
    omega

/-! ## The reader -/

/-- The character that a letter behind a backslash stands for. -/
def letterEscape? : Char → Option Char
  | 't' => some '\t'
  | 'r' => some '\r'
  | 'n' => some '\n'
  | '\'' => some '\''
  | '"' => some '"'
  | '\\' => some '\\'
  | _ => none

mutual

/-- What the inside of a literal stands for. A bare quote would end it. -/
def unescape : List Char → Option (List Char)
  | [] => some []
  | '\\' :: 'u' :: '\x7b' :: rest => unescapeCode 0 0 rest
  | '\\' :: letter :: rest =>
    match letterEscape? letter with
    | some c => (unescape rest).map (c :: ·)
    | none => none
  | c :: rest => if c = '\\' ∨ c = '"' then none else (unescape rest).map (c :: ·)

/-- The rest of a code point, one to six digits and a brace, after `count` digits
of the given value. -/
def unescapeCode (value count : Nat) : List Char → Option (List Char)
  | [] => none
  | '\x7d' :: rest =>
    if 0 < count ∧ count ≤ 6 ∧ value.isValidChar then
      (unescape rest).map (Char.ofNat value :: ·)
    else none
  | c :: rest =>
    match hexValue? c with
    | some digit => unescapeCode (16 * value + digit) (count + 1) rest
    | none => none

end

/-- The brace that ends the escape of a character turns the value that has been read into the
character again. One digit must have been read and no more than six, which is what any code
point takes. -/
theorem unescapeCode_close (c : Char) {count : Nat} (hpos : 0 < count) (hmax : count ≤ 6)
    (rest : List Char) :
    unescapeCode c.toNat count ('\x7d' :: rest) = (unescape rest).map (c :: ·) := by
  have hvalid : c.toNat.isValidChar := c.valid
  rw [unescapeCode, if_pos ⟨hpos, hmax, hvalid⟩, Char.ofNat_toNat]

/-- One more digit moves the value read so far up by one place. -/
theorem unescapeCode_digit {n : Nat} (h : n < 16) (value count : Nat) (rest : List Char) :
    unescapeCode value count (n.digitChar :: rest) =
      unescapeCode (16 * value + n) (count + 1) rest := by
  have hclose : ∀ k : Fin 16, Nat.digitChar k ≠ '\x7d' := by decide
  have hvalue := hexValue?_digitChar h
  rw [unescapeCode]
  · rw [hvalue]
  · exact hclose ⟨n, h⟩

/-- Reading the digits of a number, from its first digit on, is reading its value. The
induction is on the number, which the last digit is split off from. -/
theorem unescapeCode_toDigits (n : Nat) : ∀ rest,
    unescapeCode 0 0 (Nat.toDigits 16 n ++ rest) =
      unescapeCode n (Nat.toDigits 16 n).length rest := by
  induction n using Nat.strongRecOn with
  | _ n ih =>
    intro rest
    by_cases hn : n < 16
    · rw [Nat.toDigits_of_lt_base hn, List.singleton_append, unescapeCode_digit hn,
        Nat.mul_zero, Nat.zero_add]
      rfl
    · -- the last digit is read when the others have been
      rw [Nat.toDigits_of_base_le (by omega) (by omega), List.append_assoc, List.singleton_append,
        ih (n / 16) (by omega), unescapeCode_digit (Nat.mod_lt n (by omega)), List.length_append,
        Nat.div_add_mod]
      rfl

/-! ## The ways to write a character -/

def isPrintable (c : Char) : Bool := 0x20 ≤ c.toNat && c.toNat ≤ 0x7e

/-- A character is written as a letter behind a backslash, as it is, or by its code
point. -/
theorem asciiChar_cases (c : Char) :
    (∃ letter, asciiChar c = ['\\', letter] ∧ letterEscape? letter = some c ∧
        isPrintable letter = true) ∨
      (asciiChar c = [c] ∧ isPrintable c = true ∧ c ≠ '\\' ∧ c ≠ '"') ∨
      asciiChar c = codePointEscape c := by
  -- six characters have a letter of their own
  by_cases hletter : c ∈ ['\t', '\r', '\n', '\'', '"', '\\']
  · simp only [List.mem_cons, List.not_mem_nil, or_false] at hletter
    rcases hletter with rfl | rfl | rfl | rfl | rfl | rfl <;>
      exact Or.inl ⟨_, rfl, rfl, by decide⟩
  · simp only [List.mem_cons, List.not_mem_nil, or_false, not_or] at hletter
    obtain ⟨htab, hreturn, hfeed, hapostrophe, hquote, hbackslash⟩ := hletter
    rw [asciiChar, if_neg htab, if_neg hreturn, if_neg hfeed, if_neg hapostrophe, if_neg hquote,
      if_neg hbackslash]
    by_cases hplain : 0x20 ≤ c.toNat ∧ c.toNat ≤ 0x7e
    · have hprintable : isPrintable c = true := by
        rw [isPrintable, decide_eq_true hplain.1, decide_eq_true hplain.2]
        rfl
      exact Or.inr (Or.inl ⟨if_pos hplain, hprintable, hbackslash, hquote⟩)
    · exact Or.inr (Or.inr (if_neg hplain))

/-! ## Reading back -/

/-- The escape of a code point stands for its character, whatever follows it: the digits are
read from the first on, and the brace ends them. -/
theorem unescape_codePointEscape (c : Char) (rest : List Char) :
    unescape (codePointEscape c ++ rest) = (unescape rest).map (c :: ·) := by
  have hpos : 0 < (codePoint c).length := Nat.length_toDigits_pos
  rw [codePointEscape, List.append_assoc, List.append_assoc]
  show unescapeCode 0 0 (codePoint c ++ '\x7d' :: rest) = _
  rw [codePoint, unescapeCode_toDigits]
  exact unescapeCode_close c hpos (length_codePoint_le c) rest

/-- A letter that is an escape is not the one that begins a code point. -/
theorem unescape_letter {letter c : Char} (h : letterEscape? letter = some c) (rest : List Char) :
    unescape ('\\' :: letter :: rest) = (unescape rest).map (c :: ·) := by
  rw [unescape, h]
  rintro _ rfl -
  cases h

/-- One character is read back, whatever follows. -/
theorem unescape_asciiChar (c : Char) (rest : List Char) :
    unescape (asciiChar c ++ rest) = (unescape rest).map (c :: ·) := by
  rcases asciiChar_cases c with ⟨letter, hc, hletter, -⟩ | ⟨hc, -, hbackslash, hquote⟩ | hc
  · rw [hc]
    exact unescape_letter hletter rest
  · rw [hc, List.singleton_append, unescape]
    · rw [if_neg (by simp [hbackslash, hquote])]
    · exact fun _ heq _ => hbackslash heq
    · exact fun _ _ heq _ => hbackslash heq
  · rw [hc]
    exact unescape_codePointEscape c rest

/-- A literal is read back as the text that was escaped. -/
theorem unescape_flatMap_asciiChar (cs : List Char) :
    unescape (cs.flatMap asciiChar) = some cs := by
  induction cs with
  | nil => rw [List.flatMap_nil, unescape]
  | cons c rest ih => rw [List.flatMap_cons, unescape_asciiChar, ih, Option.map_some]

/-- **Nothing is lost by an escape.** Undoing the escapes of a text gives back the text, whatever
characters it is made of. -/
theorem unescape_escapeAscii (s : String) : unescape (escapeAscii s).toList = some s.toList := by
  rw [escapeAscii, String.toList_ofList, unescape_flatMap_asciiChar]

/-! ## What is written -/

/-- A character is written in printable ASCII, by itself or as an escape: the digits of a code
point and the letters and braces around them are printable as well. -/
theorem all_isPrintable_asciiChar (c : Char) : (asciiChar c).all isPrintable = true := by
  rcases asciiChar_cases c with ⟨letter, hc, -, hletter⟩ | ⟨hc, hplain, -, -⟩ | hc
  · rw [hc, List.all_cons, List.all_cons, hletter]
    rfl
  · rw [hc, List.all_cons, hplain]
    rfl
  · rw [hc, codePointEscape, List.all_append, List.all_append, codePoint,
      all_toDigits (by decide) c.toNat]
    rfl

/-- So there is nothing but printable ASCII in an escaped text. -/
theorem isPrintable_of_mem_escapeAscii {s : String} {d : Char} (h : d ∈ (escapeAscii s).toList) :
    isPrintable d = true := by
  rw [escapeAscii, String.toList_ofList] at h
  obtain ⟨c, -, hd⟩ := List.mem_flatMap.mp h
  exact List.all_eq_true.mp (all_isPrintable_asciiChar c) d hd

/-! ## Where a literal ends -/

/-- What may stand between the quotes of a literal: no quote, except behind a
backslash. -/
inductive IsLiteralBody : List Char → Prop where
  | nil : IsLiteralBody []
  | plain {c : Char} {cs : List Char} (hc : c ≠ '\\' ∧ c ≠ '"') (hcs : IsLiteralBody cs) :
      IsLiteralBody (c :: cs)
  | escape (c : Char) {cs : List Char} (hcs : IsLiteralBody cs) : IsLiteralBody ('\\' :: c :: cs)

/-- The inside of a literal up to its closing quote, as it is written, and what
follows the quote. -/
def literal? : List Char → Option (List Char × List Char)
  | [] => none
  | '"' :: rest => some ([], rest)
  | '\\' :: c :: rest => (literal? rest).map fun (cs, rest) => ('\\' :: c :: cs, rest)
  | c :: rest => (literal? rest).map fun (cs, rest) => (c :: cs, rest)

/-- A literal is read up to the quote behind its body and not beyond, whatever follows: no quote
inside is free, and no mark at the end takes in the last one. -/
theorem IsLiteralBody.literal? {cs : List Char} (h : IsLiteralBody cs) (rest : List Char) :
    Text.literal? (cs ++ '"' :: rest) = some (cs, rest) := by
  induction h with
  | nil => rfl
  | plain hc _ ih =>
    rw [List.cons_append, Text.literal?, ih, Option.map_some]
    · exact fun hquote => hc.2 hquote
    · exact fun _ _ hbackslash => absurd hbackslash hc.1
  | escape c _ ih => rw [List.cons_append, List.cons_append, Text.literal?, ih, Option.map_some]

/-- Characters that are neither marks nor quotes may stand in front of any body. -/
theorem isLiteralBody_of_plain {cs ds : List Char} (h : ∀ c ∈ cs, c ≠ '\\' ∧ c ≠ '"')
    (hds : IsLiteralBody ds) : IsLiteralBody (cs ++ ds) := by
  induction cs with
  | nil => exact hds
  | cons c rest ih =>
    obtain ⟨hc, hrest⟩ := List.forall_mem_cons.mp h
    exact .plain hc (ih hrest)

/-- The escape of a code point is a marked letter with plain characters behind it. -/
theorem isLiteralBody_codePointEscape (c : Char) {cs : List Char} (h : IsLiteralBody cs) :
    IsLiteralBody (codePointEscape c ++ cs) := by
  have hdigits : ∀ d ∈ codePoint c, d ≠ '\\' ∧ d ≠ '"' := by
    have hall : (codePoint c).all (fun d => d != '\\' && d != '"') = true :=
      all_toDigits (by decide) c.toNat
    intro d hd
    have hboth := List.all_eq_true.mp hall d hd
    rwa [Bool.and_eq_true, bne_iff_ne, bne_iff_ne] at hboth
  have htail : IsLiteralBody (codePoint c ++ '\x7d' :: cs) :=
    isLiteralBody_of_plain hdigits (.plain (by decide) h)
  rw [codePointEscape, List.append_assoc, List.append_assoc]
  exact .escape 'u' (.plain (by decide) htail)

/-- Whatever is written for a character leaves no quote free and no mark open. -/
theorem isLiteralBody_asciiChar (c : Char) {cs : List Char} (h : IsLiteralBody cs) :
    IsLiteralBody (asciiChar c ++ cs) := by
  rcases asciiChar_cases c with ⟨letter, hc, -, -⟩ | ⟨hc, -, hplain⟩ | hc
  · rw [hc]
    exact .escape letter h
  · rw [hc]
    exact .plain hplain h
  · rw [hc]
    exact isLiteralBody_codePointEscape c h

/-- A literal ends where it was meant to end, whatever follows. -/
theorem literal?_escapeAscii (s : String) (rest : List Char) :
    literal? ((escapeAscii s).toList ++ '"' :: rest) = some ((escapeAscii s).toList, rest) := by
  apply IsLiteralBody.literal?
  rw [escapeAscii, String.toList_ofList]
  induction s.toList with
  | nil => exact .nil
  | cons c cs ih =>
    rw [List.flatMap_cons]
    exact isLiteralBody_asciiChar c ih

end Shapewright.Text
