import Shapewright.Json.Token

/-!
# Tokens in front of other text

Where a token ends is known by the character behind it at the latest, so that what
is read does not depend on anything further on. A text that is cut behind a closing
brace keeps its tokens up to there, and so it does if other text follows.

Main definitions:

* `LocalAt` — what is read looks no further than one character ahead.

Main results:

* `readToken_local` — every token is read like that.
* `Lexeme.scan_cut` — the tokens up to a closing brace are those of the text up to
  there, whatever follows.
-/

namespace Shapewright.Json

/-! ## Looking one character ahead -/

/-- What is read from `cs` is read whatever follows the first character behind it. -/
def LocalAt {α : Type} (read : List Char → Reading α) (cs : List Char) : Prop :=
  ∀ a q d rest, read cs = .ok (a, q, d :: rest) →
    ∃ taken, cs = taken ++ d :: rest ∧ ∀ more, read (taken ++ d :: more) = .ok (a, q, d :: more)

namespace LocalAt

variable {α β : Type} {read read' : List Char → Reading α} {c : Char} {cs : List Char}

/-- A reader that takes nothing and succeeds looks at nothing. -/
theorem here (a : α) (q : Position) : LocalAt (fun cs => .ok (a, q, cs)) cs := by
  intro b r d rest h
  cases h
  exact ⟨[], rfl, fun more => rfl⟩

/-- A reader that always fails leaves nothing behind that could be looked at. -/
theorem failed {fault : List Char → Fault} :
    LocalAt (fun cs => (.error (fault cs) : Reading α)) cs := nofun

/-- Nothing is left behind what is read from the empty text. -/
theorem nil (h : ∀ a q rest, read [] = .ok (a, q, rest) → rest.length ≤ 0) : LocalAt read [] :=
  fun a q d rest hread => absurd (h a q (d :: rest) hread) (Nat.not_succ_le_zero _)

/-- A character is taken, and the rest is read in another way. -/
theorem cons (h : ∀ more, read (c :: more) = read' more) (hread' : LocalAt read' cs) :
    LocalAt read (c :: cs) := by
  intro a q d rest hread
  obtain ⟨taken, rfl, hmore⟩ := hread' a q d rest (h cs ▸ hread)
  exact ⟨c :: taken, rfl, fun more => (h _).trans (hmore more)⟩

/-- A character is looked at, and all is read in another way. -/
theorem look (h : ∀ more, read (c :: more) = read' (c :: more)) (hread' : LocalAt read' (c :: cs)) :
    LocalAt read (c :: cs) := by
  intro a q d rest hread
  obtain ⟨taken, hcs, hmore⟩ := hread' a q d rest (h cs ▸ hread)
  refine ⟨taken, hcs, fun more => ?_⟩
  -- the character is part of what is taken, or else it is what stands behind it
  cases taken with
  | nil =>
    obtain ⟨rfl, -⟩ := List.cons.inj hcs
    exact (h more).trans (hmore more)
  | cons c' taken =>
    obtain ⟨rfl, -⟩ := List.cons.inj hcs
    exact (h _).trans (hmore more)

/-- Of two readers the one that is chosen must look no further than it takes. The choice is
made before anything is read. -/
theorem ite {b : Prop} [Decidable b] (hread : b → LocalAt read cs)
    (hread' : ¬b → LocalAt read' cs) : LocalAt (fun cs => if b then read cs else read' cs) cs := by
  by_cases hb : b
  · simp only [if_pos hb]
    exact hread hb
  · simp only [if_neg hb]
    exact hread' hb

/-- The digits that the text begins with are taken, and the rest is read in a way that
they decide. -/
theorem digits {whole : List Char → Reading α} (next : List Char → List Char → Reading α)
    (h : ∀ more, whole (c :: more) =
      next ((c :: more).takeWhile Char.isDigit) ((c :: more).dropWhile Char.isDigit))
    (hnext : ∀ ds rest, LocalAt (next ds) rest) : LocalAt whole (c :: cs) := by
  suffices hall : ∀ cs, LocalAt (fun cs =>
      next (cs.takeWhile Char.isDigit) (cs.dropWhile Char.isDigit)) cs from
    look (by exact h) (hall (c :: cs))
  intro cs a q d rest hread
  obtain ⟨taken, hrest, hmore⟩ := hnext _ _ a q d rest hread
  -- what follows the digits begins with the same character, whatever comes behind the end
  obtain ⟨e, tail, hfirst, hhead⟩ : ∃ e tail, cs.dropWhile Char.isDigit = e :: tail ∧
      ∀ more, ∃ tail', taken ++ d :: more = e :: tail' := by
    cases taken with
    | nil => exact ⟨d, rest, hrest, fun more => ⟨more, rfl⟩⟩
    | cons e taken => exact ⟨e, taken ++ d :: rest, hrest, fun more => ⟨taken ++ d :: more, rfl⟩⟩
  have hdigits : ∀ c ∈ cs.takeWhile Char.isDigit, c.isDigit = true :=
    List.all_eq_true.mp List.all_takeWhile
  have he : ¬e.isDigit = true := by
    have := List.head_dropWhile_not Char.isDigit (l := cs) (by simp [hfirst])
    simpa [hfirst] using this
  refine ⟨cs.takeWhile Char.isDigit ++ taken, ?_, fun more => ?_⟩
  · rw [List.append_assoc, ← hrest, List.takeWhile_append_dropWhile]
  · obtain ⟨tail', htail'⟩ := hhead more
    dsimp only
    rw [List.append_assoc, htail', List.takeWhile_append_of_pos hdigits,
      List.dropWhile_append_of_pos hdigits, List.takeWhile_cons_of_neg he,
      List.dropWhile_cons_of_neg he, List.append_nil, ← htail']
    exact hmore more

/-- One reading follows another, whose faults are those of the whole. If each looks no further
than it takes and one character ahead, neither does the whole. -/
theorem bind {whole : List Char → Reading β} (next : α → Position → List Char → Reading β)
    (hread : LocalAt read cs) (hfailed : ∀ cs f, read cs = .error f → whole cs = .error f)
    (hfollows : ∀ cs a q rest, read cs = .ok (a, q, rest) → whole cs = next a q rest)
    (hnext : ∀ a q rest, read cs = .ok (a, q, rest) → LocalAt (next a q) rest) :
    LocalAt whole cs := by
  intro b r d rest h
  cases hfirst : read cs with
  | error f =>
    rw [hfailed cs f hfirst] at h
    cases h
  | ok result =>
    obtain ⟨a, q, middle⟩ := result
    rw [hfollows cs a q middle hfirst] at h
    obtain ⟨taken, rfl, hmore⟩ := hnext a q middle hfirst b r d rest h
    -- the second reading begins with the same character, whatever follows its end
    cases taken with
    | nil =>
      obtain ⟨before, rfl, hbefore⟩ := hread a q d rest hfirst
      exact ⟨before, rfl, fun more => (hfollows _ a q _ (hbefore more)).trans (hmore more)⟩
    | cons e taken =>
      obtain ⟨before, rfl, hbefore⟩ := hread a q e (taken ++ d :: rest) hfirst
      refine ⟨before ++ e :: taken, by simp, fun more => ?_⟩
      rw [List.append_assoc]
      exact (hfollows _ a q _ (hbefore _)).trans (hmore more)

end LocalAt

/-! ## Words -/

/-- The letters of a word are taken one by one, and each is known beforehand. -/
theorem readWord_local (expected : List Char) (p : Position) (cs : List Char) :
    LocalAt (readWord expected p) cs := by
  induction expected generalizing p cs with
  | nil =>
    have h : readWord [] p = fun cs => .ok ((), p, cs) := funext fun cs => by rw [readWord]
    rw [h]
    exact .here () p
  | cons e expected ih =>
    cases cs with
    | nil => exact .nil fun _ _ _ h => length_readWord h
    | cons c cs =>
      -- the word fails at the first letter that is another one, whatever comes behind it
      by_cases hc : c = e
      · exact .cons (fun more => by rw [readWord, if_pos hc]) (ih (p.next c) cs)
      · intro a q d rest h
        rw [readWord, if_neg hc] at h
        cases h

/-! ## Strings -/

/-- Four digits are taken, whatever is behind the last of them. -/
theorem readQuad_local (p : Position) (cs : List Char) : LocalAt (readQuad p) cs := by
  intro n q d rest h
  unfold readQuad at h
  split at h
  · -- with four characters there, it depends on them alone
    next c₁ c₂ c₃ c₄ tail =>
    split at h
    · next h₁ h₂ h₃ h₄ =>
      cases h
      exact ⟨[c₁, c₂, c₃, c₄], rfl, fun more => by simp [readQuad, h₁, h₂, h₃, h₄]⟩
    · cases h
  · split at h <;> cases h

/-- The second half of a pair is an escape of the same form. Whether it is one that fits is
decided by its digits, and nothing behind them is read. -/
theorem readLowSurrogate_local (high : Nat) (p : Position) (cs : List Char) :
    LocalAt (readLowSurrogate high p) cs := by
  intro c q d rest h
  have hpair := h
  unfold readLowSurrogate at hpair
  split at hpair
  · next tail =>
    -- what the four digits mean decides, but nothing more is read for it
    refine LocalAt.cons (fun more => rfl) (LocalAt.cons (fun more => rfl) ?_) c q d rest h
    refine .bind (fun low q rest => if isLowSurrogate low then
        .ok (Char.ofNat (0x10000 + (high - 0xD800) * 0x400 + (low - 0xDC00)), q, rest)
      else .error ⟨.loneSurrogate, q⟩) (readQuad_local (p.advance 2) tail) ?_ ?_ ?_
    · exact fun cs f hquad => by rw [readLowSurrogate, hquad]
    · exact fun cs low q rest hquad => by rw [readLowSurrogate, hquad]
    · exact fun low q rest _ => .ite (fun _ => .here _ q) fun _ => .failed
  all_goals cases hpair

/-- Whether there is a second half is told by the first one. -/
theorem readUnicode_local (p : Position) (cs : List Char) : LocalAt (readUnicode p) cs := by
  refine .bind (fun n q rest =>
    if isLowSurrogate n then .error ⟨.loneSurrogate, q⟩
    else if isHighSurrogate n then readLowSurrogate n q rest
    else .ok (Char.ofNat n, q, rest)) (readQuad_local p cs) ?_ ?_ ?_
  · exact fun cs f hquad => by rw [readUnicode, hquad]
  · exact fun cs n q rest hquad => by rw [readUnicode, hquad]
  · intro n q rest _
    refine .ite (fun _ => .failed) fun _ => ?_
    exact .ite (fun _ => readLowSurrogate_local n q rest) fun _ => .here _ q

/-- An escape is told by its letter. -/
theorem readEscape_local (p : Position) (cs : List Char) : LocalAt (readEscape p) cs := by
  intro c q d rest h
  have hescape := h
  unfold readEscape at hescape
  split at hescape
  · cases hescape
  · next tail =>
    exact LocalAt.cons (fun more => rfl) (readUnicode_local (p.advance 1) tail) c q d rest h
  · dsimp only at hescape
    split at hescape
    all_goals first
      | exact LocalAt.cons (fun more => rfl) (.here _ _) c q d rest h
      | cases hescape

/-- Put a character in front of the rest of a string. -/
def behind (c : Char) : Reading (List Char) → Reading (List Char)
  | .error f => .error f
  | .ok (tail, q, rest) => .ok (c :: tail, q, rest)

/-- An escape is read as one character, and the string goes on behind it; or the string is bad
where its escape is. -/
theorem readString_escape {p q : Position} {c : Char} {cs rest : List Char}
    (h : readEscape (p.advance 1) cs = .ok (c, q, rest)) :
    readString p ('\\' :: cs) = behind c (readString q rest) := by
  rw [readString]
  split
  · next hescape => cases h.symm.trans hescape
  · next hescape =>
    cases h.symm.trans hescape
    rfl

theorem readString_badEscape {p : Position} {cs : List Char} {f : Fault}
    (h : readEscape (p.advance 1) cs = .error f) : readString p ('\\' :: cs) = .error f := by
  rw [readString]
  split
  · next hescape =>
    cases h.symm.trans hescape
    rfl
  · next hescape => cases h.symm.trans hescape

/-- A character stands for itself if it does not end the string, begin an escape or
belong to the control characters. -/
theorem readString_plain {c : Char} (hquote : c ≠ '"') (hescape : c ≠ '\\') (p : Position)
    (cs : List Char) :
    readString p (c :: cs) =
      if c.toNat < 0x20 then .error ⟨.controlCharacter, p.next c⟩
      else behind c (readString (p.next c) cs) := by
  rw [readString]
  · rfl
  · exact hquote
  · exact hescape

/-- **A string ends at its own quote**, and what is behind that is not looked at. The
induction is on the text, which every escape makes shorter by more than one character. -/
theorem readString_local (p : Position) (cs : List Char) : LocalAt (readString p) cs := by
  have hbehind (c : Char) {q : Position} {rest : List Char} (h : LocalAt (readString q) rest) :
      LocalAt (fun rest => behind c (readString q rest)) rest :=
    .bind (fun tail q rest => .ok (c :: tail, q, rest)) h
      (fun cs f hread => by rw [hread, behind]) (fun cs tail q rest hread => by rw [hread, behind])
      fun tail q rest _ => .here (c :: tail) q
  -- what follows an escape is shorter, but not by a fixed number of characters
  induction h : cs.length using Nat.strongRecOn generalizing p cs with
  | _ n ih =>
    subst h
    cases cs with
    | nil => exact .nil fun _ _ _ h => Nat.le_of_lt (length_readString h)
    | cons c cs =>
      by_cases hquote : c = '"'
      · subst hquote
        exact .cons (fun more => by rw [readString]) (.here [] (p.advance 1))
      by_cases hescape : c = '\\'
      · subst hescape
        refine .cons (fun more => rfl) (.bind (fun c q rest => behind c (readString q rest))
          (readEscape_local (p.advance 1) cs) (fun cs f => readString_badEscape)
          (fun cs c q rest => readString_escape) fun c q rest hread => ?_)
        exact hbehind c (ih rest.length (Nat.lt_succ_of_le (length_readEscape hread)) q rest rfl)
      · refine .cons (readString_plain hquote hescape p) ?_
        refine .ite (fun _ => .failed) fun _ => ?_
        exact hbehind c (ih cs.length (Nat.lt_succ_self _) (p.next c) cs rfl)

/-! ## Numbers -/

section

variable (negative : Bool) (s : Digits) (p : Position) (cs : List Char)

/-- A number with a fraction or an exponent is finished without another look. -/
theorem finishReal_local : LocalAt (finishReal negative s p) cs := by
  unfold finishReal
  cases s.scale? with
  | some x => exact .here (signed negative x) p
  | none => exact .failed

/-- Digits go on until there is something else. This is where a number looks one character
ahead: a text goes on in the same way if the same character is next. -/
theorem readPowerDigits_local (down : Bool) : LocalAt (readPowerDigits negative down s p) cs := by
  cases cs with
  | nil => exact .nil fun _ _ _ h => length_readPowerDigits h
  | cons c cs =>
    by_cases hc : c.isDigit = true
    · refine .digits (fun digits rest => (readPower 0 digits).elim
        (fun power : Nat => finishReal negative
          { s with power := clampPower (s.power + if down then -(power : Int) else power) }
          (p.advance digits.length) rest)
        fun read =>
          if !down ∧ s.significand ≠ 0 then .error ⟨.numberOutOfRange, p.advance read⟩
          else .ok (signed negative (Binary64.zero false), p.advance digits.length, rest))
        (fun more => ?_) fun digits rest => ?_
      · rw [readPowerDigits, if_neg (by simp [hc])]
        dsimp only
        cases readPower 0 ((c :: more).takeWhile Char.isDigit) <;> rfl
      -- a power that is out of range is an error, or a zero, and the digits are passed over
      -- alike
      cases readPower 0 digits with
      | inl power => exact finishReal_local negative _ _ rest
      | inr read => exact .ite (fun _ => .failed) fun _ => .here _ _
    · intro a q d rest h
      simp [readPowerDigits, hc] at h

/-- An exponent is a sign, perhaps, and digits. -/
theorem readExponent_local : LocalAt (readExponent negative s p) cs := by
  have hdigits (p : Position) (down : Bool) (cs : List Char) :
      LocalAt (readPowerDigits negative down s p) cs := readPowerDigits_local negative s p cs down
  cases cs with
  | nil => exact .nil fun _ _ _ h => length_readExponent h
  | cons c cs =>
    by_cases hplus : c = '+'
    · subst hplus
      exact .cons (fun more => rfl) (hdigits (p.advance 1) false cs)
    by_cases hminus : c = '-'
    · subst hminus
      exact .cons (fun more => rfl) (hdigits (p.advance 1) true cs)
    · -- without a sign the digits begin right here
      exact .look (fun more => by simp [readExponent, hplus, hminus]) (hdigits p false (c :: cs))

/-- Behind the digits of a number there is an exponent or there is not. -/
theorem readTail_local : LocalAt (readTail negative s p) cs := by
  cases cs with
  | nil => exact .nil fun _ _ _ h => length_readTail h
  | cons c cs =>
    by_cases hlower : c = 'e'
    · subst hlower
      exact .cons (fun more => rfl) (readExponent_local negative s (p.advance 1) cs)
    by_cases hupper : c = 'E'
    · subst hupper
      exact .cons (fun more => rfl) (readExponent_local negative s (p.advance 1) cs)
    · -- anything else ends the number
      exact .look (fun more => by simp [readTail, hlower, hupper])
        (finishReal_local negative s p (c :: cs))

/-- The digits of a fraction go on like those in front of the point. -/
theorem readFraction_local : LocalAt (readFraction negative s p) cs := by
  cases cs with
  | nil => exact .nil fun _ _ _ h => length_readFraction h
  | cons c cs =>
    by_cases hc : c.isDigit = true
    · exact .digits (fun digits rest => readTail negative
        (digits.foldl Digits.takeFraction { s with full := false }) (p.advance digits.length) rest)
        (fun more => by simp [readFraction, hc]) fun digits rest => readTail_local negative _ _ rest
    · intro a q d rest h
      simp [readFraction, hc] at h

/-- The whole part is followed by a point, by an exponent, or by neither. -/
theorem readAfterWhole_local : LocalAt (readAfterWhole negative s p) cs := by
  cases cs with
  | nil => exact .nil fun _ _ _ h => length_readAfterWhole h
  | cons c cs =>
    by_cases hpoint : c = '.'
    · subst hpoint
      exact .cons (fun more => rfl) (readFraction_local negative s (p.advance 1) cs)
    by_cases hlower : c = 'e'
    · subst hlower
      exact .look (fun more => by rw [readAfterWhole]) (readTail_local negative s p _)
    by_cases hupper : c = 'E'
    · subst hupper
      exact .look (fun more => by rw [readAfterWhole]) (readTail_local negative s p _)
    · -- nothing else belongs to a number, so it ends in front of this character
      have hdone : LocalAt (fun cs => if s.full then finishReal negative s p cs
          else .ok (wholeNumber negative s.significand, p, cs)) (c :: cs) :=
        .ite (fun _ => finishReal_local negative s p _) fun _ => .here _ p
      exact .look (fun more => by simp [readAfterWhole, hpoint, hlower, hupper]) hdone

/-- **A number ends at the first character that cannot belong to it.** What is behind that
character does not matter, which is why a text may go on in any other way there. -/
theorem readNumber_local : LocalAt (readNumber negative p) cs := by
  cases cs with
  | nil => exact .nil fun _ _ _ h => Nat.le_of_lt (length_readNumber h)
  | cons c cs =>
    by_cases hzero : c = '0'
    · subst hzero
      -- no digit may follow a leading zero
      cases cs with
      | nil =>
        refine .cons (fun more => rfl) (.nil fun n q rest h => ?_)
        change readAfterWhole negative Digits.none (p.advance 1) [] = .ok (n, q, rest) at h
        exact length_readAfterWhole h
      | cons e cs =>
        by_cases he : e.isDigit = true
        · intro a q d rest h
          simp [readNumber, he] at h
        · exact .cons (fun more => rfl) (.look (fun more => by simp [readNumber, he])
            (readAfterWhole_local negative Digits.none (p.advance 1) (e :: cs)))
    by_cases hc : c.isDigit = true
    · exact .digits (fun digits rest => readAfterWhole negative
        (digits.foldl Digits.takeWhole Digits.none) (p.advance digits.length) rest)
        (fun more => by simp [readNumber, hc])
        fun digits rest => readAfterWhole_local negative _ _ rest
    · intro a q d rest h
      simp [readNumber, hc] at h

end

/-! ## Tokens -/

section

variable {α : Type} {good : α → Token} {bad : Fault → Token} {read : List Char → Reading α}
  {p q : Position} {c d : Char} {cs rest : List Char} {t : Token}

/-- A token that is made of what has been read is as local as the reading: making it adds
nothing to what has been looked at. -/
theorem ofReading_local (hread : LocalAt read cs)
    (h : Scanned.ofReading good bad (read cs) = ⟨t, q, d :: rest⟩) :
    ∃ taken, cs = taken ++ d :: rest ∧
      ∀ more, Scanned.ofReading good bad (read (taken ++ d :: more)) = ⟨t, q, d :: more⟩ := by
  cases hcs : read cs with
  -- a token that is bad ends the text, so nothing would be left behind it
  | error f =>
    rw [hcs] at h
    cases h
  | ok result =>
    obtain ⟨value, q', rest'⟩ := result
    rw [hcs] at h
    cases h
    obtain ⟨taken, htaken, hmore⟩ := hread value q d rest hcs
    exact ⟨taken, htaken, fun more => by rw [hmore more, Scanned.ofReading]⟩

/-- A token that begins with a digit is a number. -/
theorem readToken_digit (hc : c.isDigit = true) :
    readToken p c cs = .ofReading .number .badScalar (readNumber false p (c :: cs)) := by
  unfold readToken
  dsimp only
  split
  -- the characters that begin the other tokens are no digits
  any_goals cases hc
  rw [if_pos hc]

/-- What token there is, and where it ends, is known by the character behind it. Numbers and
words need it; all others end by themselves. -/
theorem readToken_local (h : readToken p c cs = ⟨t, q, d :: rest⟩) :
    ∃ taken, cs = taken ++ d :: rest ∧
      ∀ more, readToken p c (taken ++ d :: more) = ⟨t, q, d :: more⟩ := by
  by_cases hc : c.isDigit = true
  · obtain ⟨taken, htaken, hmore⟩ :=
      ofReading_local (readNumber_local false p (c :: cs)) ((readToken_digit hc).symm.trans h)
    cases taken with
    | nil =>
      -- the first digit is not left behind
      have hlength := length_readToken p c cs
      rw [h, ← List.nil_append (d :: rest), ← htaken] at hlength
      exact absurd hlength (Nat.not_succ_le_self cs.length)
    | cons c' taken =>
      obtain ⟨rfl, rfl⟩ := List.cons.inj htaken
      exact ⟨taken, rfl, fun more => (readToken_digit hc).trans (hmore more)⟩
  have htoken := h
  unfold readToken at htoken
  dsimp only at htoken
  split at htoken
  -- a mark takes no more than itself
  any_goals
    cases htoken
    exact ⟨[], rfl, fun more => rfl⟩
  · exact ofReading_local (readWord_local _ _ cs) h
  · exact ofReading_local (readWord_local _ _ cs) h
  · exact ofReading_local (readWord_local _ _ cs) h
  · exact ofReading_local (readString_local _ cs) h
  · exact ofReading_local (readNumber_local true _ cs) h
  · rw [if_neg hc] at htoken
    cases htoken

/-- A reading gives a token of its kind, or a bad one. -/
theorem token_ofReading (good : α → Token) (bad : Fault → Token) (r : Reading α) :
    (∃ value, (Scanned.ofReading good bad r).token = good value) ∨
      ∃ f, (Scanned.ofReading good bad r).token = bad f := by
  cases r with
  | ok result => exact Or.inl ⟨result.1, rfl⟩
  | error f => exact Or.inr ⟨f, rfl⟩

/-- A closing brace is the token of its character alone, since all that is read further has
tokens of its own. -/
theorem readToken_closeObject (h : (readToken p c cs).token = .closeObject) : c = '\x7d' := by
  have hother {α : Type} {good : α → Token} {bad : Fault → Token} {r : Reading α}
      (h : (Scanned.ofReading good bad r).token = .closeObject)
      (hgood : ∀ value, good value ≠ .closeObject) (hbad : ∀ f, bad f ≠ .closeObject) : False := by
    rcases token_ofReading good bad r with ⟨value, hr⟩ | ⟨f, hr⟩
    · exact hgood value (hr.symm.trans h)
    · exact hbad f (hr.symm.trans h)
  unfold readToken at h
  dsimp only at h
  split at h
  -- the other marks are tokens of their own
  any_goals cases h
  · rfl
  any_goals exact (hother h nofun nofun).elim
  split at h
  · exact (hother h nofun nofun).elim
  · cases h

end

/-! ## Texts -/

namespace Lexeme

variable {p : Position} {c : Char} {cs : List Char}

/-- A blank belongs to no token. -/
theorem scan_blank (hc : isBlank c = true) : scan p (c :: cs) = scan (p.next c) cs := by
  rw [scan, if_pos hc]

/-- At anything else a token begins, and the others are scanned from where it stops. -/
theorem scan_token (hc : isBlank c = false) :
    scan p (c :: cs) = ⟨(readToken p c cs).token, p, (readToken p c cs).stop⟩ ::
      scan (readToken p c cs).stop (readToken p c cs).rest := by
  rw [scan, if_neg (by simp [hc])]

/-- There are no tokens in a text of blanks, and in no other. -/
theorem scan_eq_nil_iff : scan p cs = [] ↔ cs.all isBlank = true := by
  induction cs generalizing p with
  | nil => simp [scan]
  | cons c cs ih =>
    cases hc : isBlank c with
    | true => rw [scan_blank hc, ih, List.all_cons, hc, Bool.true_and]
    | false => simp [scan_token hc, hc]

/-- **A text may be cut behind a closing brace.** The text in front of the cut has the
tokens it had there, whatever follows the cut instead, and what follows has its own. -/
theorem scan_cut {before behind : List Lexeme} {last : Lexeme}
    (hlast : last.token = .closeObject) (h : scan p cs = before ++ last :: behind) :
    ∃ head tail q, cs = head ++ tail ∧ scan q tail = behind ∧
      ∀ more, scan p (head ++ more) = before ++ last :: scan q more := by
  -- the brace is the token at hand, or it is among the tokens further on
  fun_induction scan p cs generalizing before with
  | case1 => cases before <;> cases h
  | case2 p c cs hc ih =>
    obtain ⟨head, tail, q, rfl, htail, hmore⟩ := ih h
    refine ⟨c :: head, tail, q, rfl, htail, fun more => ?_⟩
    rw [List.cons_append, scan_blank hc]
    exact hmore more
  | case3 p c cs hc s =>
    rename_i ih
    have hc : isBlank c = false := by simpa using hc
    cases before with
    | nil =>
      obtain ⟨rfl, rfl⟩ := List.cons.inj h
      obtain rfl := readToken_closeObject hlast
      exact ⟨['\x7d'], cs, p.advance 1, rfl, rfl, fun more => scan_token rfl⟩
    | cons first before =>
      obtain ⟨rfl, hbehind⟩ := List.cons.inj h
      obtain ⟨head, tail, q, hrest, htail, hmore⟩ := ih hbehind
      -- there are tokens in what is behind the first one, so it does not end the text
      cases head with
      | nil =>
        have hnone := hmore []
        simp [scan] at hnone
      | cons d head =>
        have hs : readToken p c cs = ⟨s.token, s.stop, d :: (head ++ tail)⟩ := by
          rw [← List.cons_append, ← hrest]
        obtain ⟨taken, rfl, htaken⟩ := readToken_local hs
        refine ⟨c :: (taken ++ d :: head), tail, q, by simp, htail, fun more => ?_⟩
        rw [List.cons_append, List.append_assoc, List.cons_append, scan_token hc, htaken]
        exact congrArg _ (hmore more)

end Lexeme
end Shapewright.Json
