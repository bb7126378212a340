import Shapewright.Json.NumberText

/-!
# Reading strings

A string is read from behind its opening quote to behind its closing one.
Characters beyond the basic plane are escaped as a pair of surrogates, and a
surrogate outside such a pair is a fault.

Main definitions:

* `readEscape` — the character meant by what follows a backslash.
* `readString` — the characters of a string.
-/

namespace Shapewright.Json

/-- The value of a hexadecimal digit. -/
def hexValue? (c : Char) : Option Nat :=
  if '0' ≤ c ∧ c ≤ '9' then some (c.toNat - '0'.toNat)
  else if 'a' ≤ c ∧ c ≤ 'f' then some (c.toNat - 'a'.toNat + 10)
  else if 'A' ≤ c ∧ c ≤ 'F' then some (c.toNat - 'A'.toNat + 10)
  else none

/-- Bytes of a list of characters. -/
def byteCount (cs : List Char) : Nat := cs.foldl (fun count c => count + c.utf8Size) 0

/-- Read four hexadecimal digits. Four bytes are taken whatever they are, so
that a text with fewer of them ends inside the string. -/
def readQuad (p : Position) (cs : List Char) : Reading Nat :=
  match cs with
  | a :: b :: c :: d :: rest =>
    match hexValue? a, hexValue? b, hexValue? c, hexValue? d with
    | some a, some b, some c, some d => .ok (((a * 16 + b) * 16 + c) * 16 + d, p.advance 4, rest)
    | _, _, _, _ => .error ⟨.invalidEscape, p.skip 4 cs⟩
  | _ =>
    if 4 ≤ byteCount cs then .error ⟨.invalidEscape, p.skip 4 cs⟩
    else .error ⟨.endInString, p.after cs⟩

def isHighSurrogate (n : Nat) : Bool := 0xD800 ≤ n && n ≤ 0xDBFF

def isLowSurrogate (n : Nat) : Bool := 0xDC00 ≤ n && n ≤ 0xDFFF

/-- Read the second half of a pair whose first half was `high`. -/
def readLowSurrogate (high : Nat) (p : Position) (cs : List Char) : Reading Char :=
  match cs with
  | '\\' :: 'u' :: rest =>
    match readQuad (p.advance 2) rest with
    | .error f => .error f
    | .ok (low, q, rest) =>
      if isLowSurrogate low then
        .ok (Char.ofNat (0x10000 + (high - 0xD800) * 0x400 + (low - 0xDC00)), q, rest)
      else .error ⟨.loneSurrogate, q⟩
  | ['\\'] => .error ⟨.endInString, p.advance 1⟩
  | '\\' :: rest => .error ⟨.endOfHexEscape, (p.advance 1).ahead rest⟩
  | [] => .error ⟨.endInString, p⟩
  | _ => .error ⟨.endOfHexEscape, p.ahead cs⟩

/-- Read the escape that `\u` begins. -/
def readUnicode (p : Position) (cs : List Char) : Reading Char :=
  match readQuad p cs with
  | .error f => .error f
  | .ok (n, q, rest) =>
    -- a second half cannot come first
    if isLowSurrogate n then .error ⟨.loneSurrogate, q⟩
    else if isHighSurrogate n then readLowSurrogate n q rest
    else .ok (Char.ofNat n, q, rest)

/-- Read what follows a backslash. -/
def readEscape (p : Position) (cs : List Char) : Reading Char :=
  match cs with
  | [] => .error ⟨.endInString, p⟩
  | 'u' :: rest => readUnicode (p.advance 1) rest
  | c :: rest =>
    let plain (meaning : Char) : Reading Char := .ok (meaning, p.advance 1, rest)
    match c with
    | '"' => plain '"'
    | '\\' => plain '\\'
    | '/' => plain '/'
    | 'b' => plain '\x08'
    | 'f' => plain '\x0c'
    | 'n' => plain '\n'
    | 'r' => plain '\r'
    | 't' => plain '\t'
    | _ => .error ⟨.invalidEscape, p.ahead cs⟩

/-! ## Reading only moves forward -/

variable {p q : Position} {cs rest : List Char} {c : Char} {n high : Nat}

theorem length_readQuad (h : readQuad p cs = .ok (n, q, rest)) :
    rest.length ≤ cs.length := by
  unfold readQuad at h
  split at h
  · split at h
    · simp only [Except.ok.injEq, Prod.mk.injEq] at h
      simp [← h.2.2]
      omega
    · simp at h
  · split at h <;> simp at h

theorem length_readLowSurrogate (h : readLowSurrogate high p cs = .ok (c, q, rest)) :
    rest.length ≤ cs.length := by
  unfold readLowSurrogate at h
  split at h
  · next tail =>
    split at h
    · simp at h
    · next low q' rest' hq =>
      have := length_readQuad hq
      split at h
      · simp only [Except.ok.injEq, Prod.mk.injEq] at h
        simp [← h.2.2]
        omega
      · simp at h
  all_goals simp at h

theorem length_readUnicode (h : readUnicode p cs = .ok (c, q, rest)) :
    rest.length ≤ cs.length := by
  unfold readUnicode at h
  split at h
  · simp at h
  · next n q' rest' hq =>
    have hl := length_readQuad hq
    split at h
    · simp at h
    · split at h
      · exact Nat.le_trans (length_readLowSurrogate h) hl
      · simp only [Except.ok.injEq, Prod.mk.injEq] at h
        rw [← h.2.2]
        exact hl

theorem length_readEscape (h : readEscape p cs = .ok (c, q, rest)) :
    rest.length ≤ cs.length := by
  unfold readEscape at h
  split at h
  · simp at h
  · exact Nat.le_succ_of_le (length_readUnicode h)
  · dsimp only at h
    split at h
    all_goals first
      | (simp only [Except.ok.injEq, Prod.mk.injEq] at h; simp [← h.2.2])
      | simp at h

/-! ## Strings -/

/-- Read the characters of a string up to its closing quote. -/
def readString (p : Position) (cs : List Char) : Reading (List Char) :=
  match cs with
  | [] => .error ⟨.endInString, p⟩
  | '"' :: rest => .ok ([], p.advance 1, rest)
  | '\\' :: rest =>
    match _h : readEscape (p.advance 1) rest with
    | .error f => .error f
    | .ok (c, q, rest') =>
      match readString q rest' with
      | .error f => .error f
      | .ok (tail, q, rest) => .ok (c :: tail, q, rest)
  | c :: rest =>
    if c.toNat < 0x20 then .error ⟨.controlCharacter, p.next c⟩
    else
      match readString (p.next c) rest with
      | .error f => .error f
      | .ok (tail, q, rest) => .ok (c :: tail, q, rest)
termination_by cs.length
decreasing_by
  · exact Nat.lt_succ_of_le (length_readEscape _h)
  · simp

/-- A string takes at least its closing quote. -/
theorem length_readString {s : List Char} (h : readString p cs = .ok (s, q, rest)) :
    rest.length < cs.length := by
  fun_induction readString p cs generalizing s q rest with
  | case1 => simp at h
  | case2 p tail =>
    simp only [Except.ok.injEq, Prod.mk.injEq] at h
    simp [← h.2.2]
  | case3 => simp at h
  | case4 => simp at h
  | case5 p tail c q' rest' he s' q'' rest'' hr ih =>
    simp only [Except.ok.injEq, Prod.mk.injEq] at h
    have h1 := ih hr
    have h2 := length_readEscape he
    simp only [List.length_cons]
    rw [← h.2.2]
    omega
  | case6 => simp at h
  | case7 => simp at h
  | case8 p c tail _ _ _ s' q'' rest'' hr ih =>
    simp only [Except.ok.injEq, Prod.mk.injEq] at h
    have h1 := ih hr
    simp only [List.length_cons]
    rw [← h.2.2]
    omega

end Shapewright.Json
