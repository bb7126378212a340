import Shapewright.Json.StringText

/-!
# Tokens of a JSON text

A text is cut into tokens up to the first one that is malformed. Malformed
tokens are tokens too: whether the fault they carry is the one to report is for
the reader of the tokens to say, who may have wanted no value at that place.

Main definitions:

* `Token`, `Lexeme` — a token and the places before and behind it.
* `Lexeme.scan` — the tokens of a list of characters.
* `Source` — the tokens of a whole text together with the place where it ends.
-/

namespace Shapewright.Json

inductive Token where
  | openObject
  | closeObject
  | openArray
  | closeArray
  | comma
  | colon
  | null
  | boolean (value : Bool)
  | number (value : Number)
  | string (value : String)
  /-- A word or number that goes wrong. -/
  | badScalar (fault : Fault)
  /-- A string that goes wrong behind its opening quote. -/
  | badString (fault : Fault)
  /-- A character that begins no token. -/
  | stray
  deriving Repr, DecidableEq, Inhabited

/-- A token with the places before its first byte and behind its last one. -/
structure Lexeme where
  token : Token
  start : Position
  stop : Position
  deriving Repr, DecidableEq, Inhabited

/-- The place that a fault found by looking at the token is reported at: a
token never begins with a line feed. -/
def Lexeme.ahead (l : Lexeme) : Position := l.start.advance 1

/-- Blanks between tokens. -/
def isBlank (c : Char) : Bool := c == ' ' || c == '\n' || c == '\t' || c == '\r'

/-- Read the rest of a word. -/
def readWord (expected : List Char) (p : Position) (cs : List Char) : Reading Unit :=
  match expected, cs with
  | [], cs => .ok ((), p, cs)
  | _ :: _, [] => .error ⟨.endInValue, p⟩
  | e :: expected, c :: rest =>
    if c = e then readWord expected (p.next c) rest
    else .error ⟨.expectedWord, p.ahead cs⟩

/-- A token, the place behind it and the characters behind it. -/
structure Scanned where
  token : Token
  stop : Position
  rest : List Char

/-- A token that ends the scan. -/
def Scanned.last (token : Token) (p : Position) : Scanned := ⟨token, p, []⟩

/-- A token read as a value, or the malformed one made of its fault. -/
def Scanned.ofReading {α : Type} (good : α → Token) (bad : Fault → Token) :
    Reading α → Scanned
  | .ok (value, p, rest) => ⟨good value, p, rest⟩
  | .error f => .last (bad f) f.position

/-- Read the token that begins with `c`. -/
def readToken (p : Position) (c : Char) (rest : List Char) : Scanned :=
  let one (token : Token) : Scanned := ⟨token, p.advance 1, rest⟩
  let word (expected : String) (token : Token) : Scanned :=
    .ofReading (fun _ => token) .badScalar (readWord expected.toList (p.advance 1) rest)
  match c with
  | '\x7b' => one .openObject
  | '\x7d' => one .closeObject
  | '[' => one .openArray
  | ']' => one .closeArray
  | ',' => one .comma
  | ':' => one .colon
  | 'n' => word "ull" .null
  | 't' => word "rue" (.boolean true)
  | 'f' => word "alse" (.boolean false)
  | '"' => .ofReading (.string ∘ String.ofList) .badString (readString (p.advance 1) rest)
  | '-' => .ofReading .number .badScalar (readNumber true (p.advance 1) rest)
  | _ =>
    if c.isDigit then .ofReading .number .badScalar (readNumber false p (c :: rest))
    else .last .stray p

theorem length_readWord {expected : List Char} {p q : Position} {cs rest : List Char}
    (h : readWord expected p cs = .ok ((), q, rest)) : rest.length ≤ cs.length := by
  fun_induction readWord expected p cs with
  | case1 => simp_all
  | case2 => simp at h
  | case3 _ _ _ _ ih => exact Nat.le_succ_of_le (ih h)
  | case4 => simp at h

/-- The rest of a reading that leaves at most as much as it was given. -/
theorem length_ofReading {α : Type} {good : α → Token} {bad : Fault → Token} {r : Reading α}
    {n : Nat} (h : ∀ value p rest, r = .ok (value, p, rest) → rest.length ≤ n) :
    (Scanned.ofReading good bad r).rest.length ≤ n := by
  match r with
  | .ok (value, p, rest) => exact h value p rest rfl
  | .error f => exact Nat.zero_le n

/-- A token takes at least the character it begins with. -/
theorem length_readToken (p : Position) (c : Char) (rest : List Char) :
    (readToken p c rest).rest.length ≤ rest.length := by
  unfold readToken
  dsimp only
  split
  any_goals exact Nat.le_refl _
  any_goals exact length_ofReading fun _ _ _ h => length_readWord h
  · exact length_ofReading fun _ _ _ h => Nat.le_of_lt (length_readString h)
  · exact length_ofReading fun _ _ _ h => Nat.le_of_lt (length_readNumber h)
  · split
    · exact length_ofReading fun _ _ _ h => Nat.le_of_lt_succ (length_readNumber h)
    · exact Nat.zero_le _

/-- The tokens of `cs`, which begins at `p`. -/
def Lexeme.scan (p : Position) (cs : List Char) : List Lexeme :=
  match cs with
  | [] => []
  | c :: rest =>
    if isBlank c then Lexeme.scan (p.next c) rest
    else
      let s := readToken p c rest
      ⟨s.token, p, s.stop⟩ :: Lexeme.scan s.stop s.rest
termination_by cs.length
decreasing_by
  · simp
  · exact Nat.lt_succ_of_le (length_readToken p c rest)

/-- The tokens of a text and the place where the text ends. -/
structure Source where
  lexemes : List Lexeme
  finish : Position
  deriving Repr, Inhabited

def Source.ofText (text : String) : Source :=
  let cs := text.toList
  ⟨Lexeme.scan .origin cs, Position.origin.after cs⟩

end Shapewright.Json
