import Shapewright.Json.Value
import Shapewright.Text.Pieces

/-!
# Pointers into documents

A pointer is empty and means the whole document, or consists of tokens each
behind a slash. A token names a member of an object, with `~1` for a slash and
`~0` for a tilde, or is the index of an item of a list, without a sign and
without leading zeros.

Main definitions:

* `Value.at?` — the part that tokens lead to.
* `Value.pointed?` — the part that a pointer leads to.
-/

namespace Shapewright.Json

namespace Pointer

/-- A token with its escapes resolved. Any other tilde stands for itself. -/
def unescape : List Char → List Char
  | [] => []
  | '~' :: '1' :: rest => '/' :: unescape rest
  | '~' :: '0' :: rest => '~' :: unescape rest
  | c :: rest => c :: unescape rest

/-- The value of decimal digits behind those that are worth `read`. -/
def digitsValue (read : Nat) : List Char → Nat
  | [] => read
  | c :: rest => digitsValue (10 * read + (c.toNat - '0'.toNat)) rest

/-- The index that a token is. -/
def index? (token : List Char) : Option Nat :=
  match token with
  | [] => none
  | ['0'] => some 0
  | c :: _ => if c != '0' && token.all Char.isDigit then some (digitsValue 0 token) else none

/-- The tokens of a pointer. -/
def tokens? (pointer : List Char) : Option (List (List Char)) :=
  match pointer with
  | [] => some []
  | c :: rest => if c = '/' then some ((Text.pieces '/' rest).map unescape) else none

end Pointer

/-- The part that tokens lead to. -/
def Value.at? (v : Value) : List (List Char) → Option Value
  | [] => some v
  | token :: rest =>
    match v with
    | .object members =>
      match Member.get? (String.ofList token) members with
      | some part => part.at? rest
      | none => none
    | .array items =>
      match (Pointer.index? token).bind (items[·]?) with
      | some part => part.at? rest
      | none => none
    | _ => none

/-- The part that a pointer leads to. -/
def Value.pointed? (v : Value) (pointer : String) : Option Value :=
  (Pointer.tokens? pointer.toList).bind v.at?

end Shapewright.Json
