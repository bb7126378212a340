/-!
# Places in a text and what is wrong there

A fault of a JSON text is a cause at a position. Columns count bytes: a fault
found by consuming a byte lies behind that byte, and one found by looking at the
next byte lies one byte further on, or at the end of the text if none is left.
-/

namespace Shapewright.Json

/-- A place in a text: the line, counted from one, and how many bytes of the
line precede the place. -/
structure Position where
  line : Nat
  column : Nat
  deriving Repr, DecidableEq, Inhabited

namespace Position

/-- The beginning of a text. -/
def origin : Position := ⟨1, 0⟩

/-- The place behind a character. -/
def next (p : Position) (c : Char) : Position :=
  if c = '\n' then ⟨p.line + 1, 0⟩ else ⟨p.line, p.column + c.utf8Size⟩

/-- The place behind a list of characters. -/
def after (p : Position) (cs : List Char) : Position := cs.foldl next p

/-- The place `n` bytes further on, which may split a character. -/
def skip (p : Position) : Nat → List Char → Position
  | _, [] => p
  | n, c :: rest =>
    if c.utf8Size ≤ n then (p.next c).skip (n - c.utf8Size) rest
    else ⟨p.line, p.column + n⟩

/-- The place behind the first byte of what comes next. -/
def ahead (p : Position) (cs : List Char) : Position := p.skip 1 cs

/-- The place `n` bytes further on in the same line. -/
def advance (p : Position) (n : Nat) : Position := ⟨p.line, p.column + n⟩

end Position

/-- What can be wrong with a JSON text. -/
inductive Cause where
  | endInList
  | endInObject
  | endInString
  | endInValue
  | expectedColon
  | expectedListEnd
  | expectedObjectEnd
  | expectedWord
  | expectedValue
  | invalidEscape
  | invalidNumber
  | numberOutOfRange
  | keyNotString
  | controlCharacter
  | loneSurrogate
  | endOfHexEscape
  | trailingComma
  | trailingCharacters
  | tooDeep
  deriving Repr, DecidableEq, Inhabited

def Cause.message : Cause → String
  | .endInList => "EOF while parsing a list"
  | .endInObject => "EOF while parsing an object"
  | .endInString => "EOF while parsing a string"
  | .endInValue => "EOF while parsing a value"
  | .expectedColon => "expected `:`"
  | .expectedListEnd => "expected `,` or `]`"
  | .expectedObjectEnd => "expected `,` or `\x7d`"
  | .expectedWord => "expected ident"
  | .expectedValue => "expected value"
  | .invalidEscape => "invalid escape"
  | .invalidNumber => "invalid number"
  | .numberOutOfRange => "number out of range"
  | .keyNotString => "key must be a string"
  | .controlCharacter => "control character (\\u0000-\\u001F) found while parsing a string"
  | .loneSurrogate => "lone leading surrogate in hex escape"
  | .endOfHexEscape => "unexpected end of hex escape"
  | .trailingComma => "trailing comma"
  | .trailingCharacters => "trailing characters"
  | .tooDeep => "recursion limit exceeded"

/-- `message` with the place it belongs to. -/
def Position.annotate (p : Position) (message : String) : String :=
  message ++ " at line " ++ toString p.line ++ " column " ++ toString p.column

structure Fault where
  cause : Cause
  position : Position
  deriving Repr, DecidableEq, Inhabited

def Fault.message (f : Fault) : String := f.position.annotate f.cause.message

end Shapewright.Json
