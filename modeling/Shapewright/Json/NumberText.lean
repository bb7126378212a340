import Shapewright.Json.Value
import Shapewright.Json.Fault

/-!
# Reading numbers

A number is read digit by digit into a 64-bit significand and a power of ten.
A number with neither fraction nor exponent that fits 64 bits is an integer;
every other one becomes a real by scaling the rounded significand, which is not
always the nearest real to what is written, and never more than 64 bits of
digits count.

Main definitions:

* `Digits` — the significand and the power of ten read so far.
* `Digits.scale?` — the real number they stand for.
* `readNumber` — the number at the head of a list of characters, with the place
  and the characters behind it.
-/

namespace Shapewright.Json

/-- The largest significand. -/
def maxSignificand : Nat := Nat.pow 2 64 - 1

/-- The largest written exponent; a longer one does not count. -/
def maxPower : Nat := Nat.pow 2 31 - 1

/-- Digits read so far: their value is `significand * 10^power`. Once a digit
does not fit, the digits of the same part that follow are not tried. -/
structure Digits where
  significand : Nat
  power : Int
  full : Bool
  deriving Repr, DecidableEq

namespace Digits

def none : Digits := ⟨0, 0, false⟩

def digitValue (c : Char) : Nat := c.toNat - '0'.toNat

/-- Take a digit before the point: one that does not fit only raises the power. -/
def takeWhole (s : Digits) (c : Char) : Digits :=
  let longer := s.significand * 10 + digitValue c
  if s.full || maxSignificand < longer then { s with power := s.power + 1, full := true }
  else { s with significand := longer }

/-- Take a digit after the point: one that does not fit is dropped. -/
def takeFraction (s : Digits) (c : Char) : Digits :=
  let longer := s.significand * 10 + digitValue c
  if s.full || maxSignificand < longer then { s with full := true }
  else { s with significand := longer, power := s.power - 1 }

/-- A power of ten as a real number; exact only up to the twenty-second. -/
def tenTo (k : Nat) : Binary64 := (Binary64.ofRatio? false (Nat.pow 10 k) 1).getD default

/-- The largest power of ten that is a finite real number. -/
def maxTenPower : Nat := 308

/-- Divide by the largest power of ten `n` times, or until nothing is left. -/
def shrink? : Nat → Binary64 → Option Binary64
  | 0, x => some x
  | n + 1, x => if x.isZero then some x else (x.div? (tenTo maxTenPower)).bind (shrink? n)

/-- `x * 10^power`, rounded at each step; `none` when it is too large. -/
def scaleBy? (x : Binary64) (power : Int) : Option Binary64 :=
  let size := power.natAbs
  if size ≤ maxTenPower then
    if 0 ≤ power then x.mul? (tenTo size) else x.div? (tenTo size)
  else if x.isZero then some x
  else if 0 ≤ power then Option.none
  else
    let steps := (size - 1) / maxTenPower
    (shrink? steps x).bind (·.div? (tenTo (size - steps * maxTenPower)))

/-- The real number that the digits stand for; `none` when it is too large. -/
def scale? (s : Digits) : Option Binary64 :=
  (Binary64.ofRatio? false s.significand 1).bind (scaleBy? · s.power)

end Digits

/-- A real number with the sign of its text. -/
def signed (negative : Bool) (x : Binary64) : Number :=
  .real (if negative then x.neg else x)

/-- A whole number without fraction and exponent. Zero with a minus sign and
anything below the signed range are reals. -/
def wholeNumber (negative : Bool) (n : Nat) : Number :=
  if !negative then .integer n
  else if 0 < n ∧ n ≤ Nat.pow 2 63 then .integer (-(n : Int))
  else signed true ((Binary64.ofRatio? false n 1).getD default)

/-- What reading at a place gives: a result with the place and the characters behind it. -/
abbrev Reading (α : Type) := Except Fault (α × Position × List Char)

/-- Close a real number at `p`. -/
def finishReal (negative : Bool) (s : Digits) (p : Position) (rest : List Char) :
    Reading Number :=
  match s.scale? with
  | some x => .ok (signed negative x, p, rest)
  | none => .error ⟨.numberOutOfRange, p⟩

/-- Read the digits of an exponent. `Sum.inr` tells after how many of them it
is too large. -/
def readPower (power : Nat) : List Char → Nat ⊕ Nat
  | [] => .inl power
  | c :: rest =>
    let longer := power * 10 + Digits.digitValue c
    if maxPower < longer then .inr 1
    else (readPower longer rest).map id (· + 1)

/-- The nearest power in the range of a signed 32-bit number. -/
def clampPower (power : Int) : Int := max (-(maxPower : Int) - 1) (min maxPower power)

/-- Read the digits of an exponent whose sign is behind the reader. -/
def readPowerDigits (negative down : Bool) (s : Digits) (p : Position) (cs : List Char) :
    Reading Number :=
  match cs with
  | [] => .error ⟨.endInValue, p⟩
  | c :: _ =>
    if !c.isDigit then .error ⟨.invalidNumber, p.ahead cs⟩
    else
      let digits := cs.takeWhile Char.isDigit
      let rest := cs.dropWhile Char.isDigit
      let stop := p.advance digits.length
      match readPower 0 digits with
      | .inl power =>
        let power : Int := if down then -(power : Int) else power
        finishReal negative { s with power := clampPower (s.power + power) } stop rest
      -- the power does not fit its type: an error if it makes the number larger, else zero
      | .inr read =>
        if !down ∧ s.significand ≠ 0 then .error ⟨.numberOutOfRange, p.advance read⟩
        else .ok (signed negative (Binary64.zero false), stop, rest)

/-- Read what follows the exponent mark. -/
def readExponent (negative : Bool) (s : Digits) (p : Position) (cs : List Char) :
    Reading Number :=
  match cs with
  | '+' :: rest => readPowerDigits negative false s (p.advance 1) rest
  | '-' :: rest => readPowerDigits negative true s (p.advance 1) rest
  | _ => readPowerDigits negative false s p cs

/-- Read what follows the digits of a number: an exponent or nothing. -/
def readTail (negative : Bool) (s : Digits) (p : Position) (cs : List Char) : Reading Number :=
  match cs with
  | 'e' :: rest => readExponent negative s (p.advance 1) rest
  | 'E' :: rest => readExponent negative s (p.advance 1) rest
  | _ => finishReal negative s p cs

/-- Read what follows the decimal point. -/
def readFraction (negative : Bool) (s : Digits) (p : Position) (cs : List Char) :
    Reading Number :=
  match cs with
  | [] => .error ⟨.endInValue, p⟩
  | c :: _ =>
    if !c.isDigit then .error ⟨.invalidNumber, p.ahead cs⟩
    else
      let digits := cs.takeWhile Char.isDigit
      -- a significand that was full takes digits again, as they are behind the point
      let s := digits.foldl Digits.takeFraction { s with full := false }
      readTail negative s (p.advance digits.length) (cs.dropWhile Char.isDigit)

/-- Read what follows the digits before the point, a lone leading zero included. -/
def readAfterWhole (negative : Bool) (s : Digits) (p : Position) (cs : List Char) :
    Reading Number :=
  match cs with
  | '.' :: rest => readFraction negative s (p.advance 1) rest
  | 'e' :: _ => readTail negative s p cs
  | 'E' :: _ => readTail negative s p cs
  | _ =>
    if s.full then finishReal negative s p cs
    else .ok (wholeNumber negative s.significand, p, cs)

/-- Read a number whose sign is behind the reader. -/
def readNumber (negative : Bool) (p : Position) (cs : List Char) : Reading Number :=
  match cs with
  | [] => .error ⟨.endInValue, p⟩
  | '0' :: rest =>
    let stop := p.advance 1
    -- no digit may follow a leading zero
    if (rest.takeWhile Char.isDigit).isEmpty then readAfterWhole negative Digits.none stop rest
    else .error ⟨.invalidNumber, stop.ahead rest⟩
  | c :: _ =>
    if !c.isDigit then .error ⟨.invalidNumber, p.ahead cs⟩
    else
      let digits := cs.takeWhile Char.isDigit
      let s := digits.foldl Digits.takeWhole Digits.none
      readAfterWhole negative s (p.advance digits.length) (cs.dropWhile Char.isDigit)

/-! ## Reading only moves forward -/

theorem length_dropWhile_le {α : Type} (f : α → Bool) (xs : List α) :
    (xs.dropWhile f).length ≤ xs.length :=
  (List.dropWhile_suffix f).length_le

variable {negative down : Bool} {s : Digits} {p q : Position} {cs rest : List Char} {n : Number}

theorem length_finishReal (h : finishReal negative s p cs = .ok (n, q, rest)) :
    rest.length ≤ cs.length := by
  unfold finishReal at h
  split at h <;> simp_all

theorem length_readPowerDigits (h : readPowerDigits negative down s p cs = .ok (n, q, rest)) :
    rest.length ≤ cs.length := by
  have hd := length_dropWhile_le Char.isDigit cs
  unfold readPowerDigits at h
  split at h
  · simp at h
  · split at h
    · simp at h
    · dsimp only at h
      split at h
      · exact Nat.le_trans (length_finishReal h) hd
      · split at h
        · simp at h
        · simp only [Except.ok.injEq, Prod.mk.injEq] at h
          rw [← h.2.2]
          exact hd

theorem length_readExponent (h : readExponent negative s p cs = .ok (n, q, rest)) :
    rest.length ≤ cs.length := by
  unfold readExponent at h
  split at h
  · exact Nat.le_succ_of_le (length_readPowerDigits h)
  · exact Nat.le_succ_of_le (length_readPowerDigits h)
  · exact length_readPowerDigits h

theorem length_readTail (h : readTail negative s p cs = .ok (n, q, rest)) :
    rest.length ≤ cs.length := by
  unfold readTail at h
  split at h
  · exact Nat.le_succ_of_le (length_readExponent h)
  · exact Nat.le_succ_of_le (length_readExponent h)
  · exact length_finishReal h

theorem length_readFraction (h : readFraction negative s p cs = .ok (n, q, rest)) :
    rest.length ≤ cs.length := by
  have hd := length_dropWhile_le Char.isDigit cs
  unfold readFraction at h
  split at h
  · simp at h
  · split at h
    · simp at h
    · exact Nat.le_trans (length_readTail h) hd

theorem length_readAfterWhole (h : readAfterWhole negative s p cs = .ok (n, q, rest)) :
    rest.length ≤ cs.length := by
  unfold readAfterWhole at h
  split at h
  · exact Nat.le_succ_of_le (length_readFraction h)
  · exact length_readTail h
  · exact length_readTail h
  · split at h
    · exact length_finishReal h
    · simp_all

/-- A number takes at least one character. -/
theorem length_readNumber (h : readNumber negative p cs = .ok (n, q, rest)) :
    rest.length < cs.length := by
  unfold readNumber at h
  split at h
  · simp at h
  · dsimp only at h
    split at h
    · exact Nat.lt_succ_of_le (length_readAfterWhole h)
    · simp at h
  · next c tail _ =>
    split at h
    · simp at h
    · next hc =>
      refine Nat.lt_of_le_of_lt (length_readAfterWhole h) ?_
      have hc : c.isDigit = true := by simpa using hc
      rw [List.dropWhile_cons_of_pos hc]
      exact Nat.lt_succ_of_le (length_dropWhile_le _ _)

end Shapewright.Json
