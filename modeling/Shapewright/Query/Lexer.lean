import Shapewright.Json.StringText
import Shapewright.Text.Blank

/-!
# Tokens of filters

Main definitions:

* `Query.Token`.
* `Query.tokens?` — the tokens of a text, unless it has none at some place.
-/

namespace Shapewright.Query

inductive Token where
  /-- A name, keywords and names in modules included. -/
  | name (text : String)
  /-- A name behind a point. -/
  | field (text : String)
  | variable (text : String)
  | number (text : List Char)
  | string (text : String)
  /-- An operator, a bracket or a separator. -/
  | mark (text : String)
  deriving Repr, DecidableEq, Inhabited

def isNameStart (c : Char) : Bool := c.isAlpha || c == '_'

def isNameChar (c : Char) : Bool := c.isAlphanum || c == '_'

/-- Characters that operators consist of; as many as possible make one operator. -/
def isOperatorChar (c : Char) : Bool := "|=!<>+*/%".toList.contains c

/-- Characters that stand alone. The minus sign is one, so that an operator can be
followed by a sign. -/
def isSeparator (c : Char) : Bool := "-,:;?()[]\x7b\x7d".toList.contains c

/-- The exponent at the head of `cs` and what follows it. Without its mark it is
empty, and with the mark it must have digits. -/
def exponent? (cs : List Char) : Option (List Char × List Char) :=
  match cs with
  | [] => some ([], [])
  | e :: behind =>
    if e = 'e' ∨ e = 'E' then
      -- a sign belongs to it, but is not enough
      let (sign, behind) :=
        match behind with
        | '+' :: rest => (['+'], rest)
        | '-' :: rest => (['-'], rest)
        | rest => ([], rest)
      let digits := behind.takeWhile Char.isDigit
      if digits.isEmpty then none else some (e :: sign ++ digits, behind.dropWhile Char.isDigit)
    else some ([], cs)

/-- The fraction at the head of `cs` and what follows it. Without its point it is
empty, and with the point it must have digits. -/
def fraction? : List Char → Option (List Char × List Char)
  | '.' :: behind =>
    let digits := behind.takeWhile Char.isDigit
    if digits.isEmpty then none else some ('.' :: digits, behind.dropWhile Char.isDigit)
  | cs => some ([], cs)

/-- The number at the head of `cs` and what follows it: digits, and a fraction and
an exponent where they are there. -/
def number? (cs : List Char) : Option (List Char × List Char) :=
  match fraction? (cs.dropWhile Char.isDigit) with
  | none => none
  | some (fraction, behind) =>
    (exponent? behind).map fun (power, behind) =>
      (cs.takeWhile Char.isDigit ++ fraction ++ power, behind)

/-- The name at the head of `cs` and what follows it. Two colons join it to a
second one, which must be there, the name of something in a module. -/
def name? (cs : List Char) : Option (List Char × List Char) :=
  let own := cs.takeWhile isNameChar
  match cs.dropWhile isNameChar with
  | ':' :: ':' :: behind =>
    if behind.head?.any isNameStart then
      some (own ++ ':' :: ':' :: behind.takeWhile isNameChar, behind.dropWhile isNameChar)
    else none
  | behind => some (own, behind)

/-- The character that four hexadecimal digits name. Surrogates are none. -/
def named? (a b c d : Char) : Option Char :=
  match Json.hexValue? a, Json.hexValue? b, Json.hexValue? c, Json.hexValue? d with
  | some a, some b, some c, some d =>
    let n := ((a * 16 + b) * 16 + c) * 16 + d
    if Json.isHighSurrogate n || Json.isLowSurrogate n then none else some (Char.ofNat n)
  | _, _, _, _ => none

/-- The character that an escape without digits means. -/
def meaning? : Char → Option Char
  | '"' => some '"'
  | '\\' => some '\\'
  | '/' => some '/'
  | 'b' => some '\x08'
  | 'f' => some '\x0c'
  | 'n' => some '\n'
  | 'r' => some '\r'
  | 't' => some '\t'
  | _ => none

/-- The rest of a string with its escapes resolved, and what follows it. -/
def stringText? : List Char → Option (List Char × List Char)
  | [] => none
  | '"' :: rest => some ([], rest)
  | '\\' :: 'u' :: a :: b :: c :: d :: rest =>
    match named? a b c d, stringText? rest with
    | some meant, some (s, behind) => some (meant :: s, behind)
    | _, _ => none
  | '\\' :: c :: rest =>
    match meaning? c, stringText? rest with
    | some meant, some (s, behind) => some (meant :: s, behind)
    | _, _ => none
  | c :: rest => (stringText? rest).map fun (s, behind) => (c :: s, behind)

/-- What follows a comment, which ends with its line. A line that ends with an odd
number of backslashes does not end it; `odd` tells whether such a number precedes. -/
def afterComment (odd : Bool) : List Char → List Char
  | [] => []
  | '\n' :: rest => if odd then afterComment false rest else rest
  | '\r' :: '\n' :: rest => if odd then afterComment false rest else rest
  | '\\' :: rest => afterComment (!odd) rest
  | _ :: rest => afterComment false rest

/-- The token at the head of `c :: rest`, and what follows it. -/
def token? (c : Char) (rest : List Char) : Option (Token × List Char) :=
  let cs := c :: rest
  if isNameStart c then
    (name? cs).map fun (text, behind) => (.name (String.ofList text), behind)
  else if c.isDigit then (number? cs).map fun (text, behind) => (.number text, behind)
  -- operators are taken as long as they go on, whether there is one of that name or not
  else if isOperatorChar c then
    some (.mark (String.ofList (cs.takeWhile isOperatorChar)), cs.dropWhile isOperatorChar)
  else if isSeparator c then some (.mark (String.singleton c), rest)
  else if c = '"' then
    (stringText? rest).map fun (s, behind) => (.string (String.ofList s), behind)
  else if c = '$' then
    if rest.head?.any isNameStart then
      some (.variable (String.ofList (rest.takeWhile isNameChar)), rest.dropWhile isNameChar)
    else none
  else if c = '.' then
    match rest with
    | [] => some (.mark ".", [])
    | d :: behind =>
      if d = '.' then some (.mark "..", behind)
      else if isNameStart d then
        some (.field (String.ofList (rest.takeWhile isNameChar)), rest.dropWhile isNameChar)
      else some (.mark ".", rest)
  else none

/-- The tokens of `cs`, at most `fuel` of them with the blanks between. -/
def tokensFrom? : Nat → List Char → Option (List Token)
  | _, [] => some []
  | 0, _ :: _ => none
  | fuel + 1, c :: rest =>
    if Text.isSpace c then tokensFrom? fuel rest
    else if c = '#' then tokensFrom? fuel (afterComment false rest)
    else
      match token? c rest with
      | none => none
      | some (t, rest) => (tokensFrom? fuel rest).map (t :: ·)

/-- The tokens of a text. Every one takes at least one character. -/
def tokens? (text : String) : Option (List Token) :=
  tokensFrom? text.toList.length text.toList

end Shapewright.Query
