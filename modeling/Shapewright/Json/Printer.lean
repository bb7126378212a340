import Shapewright.Json.Value

/-!
# Writing documents

Two layouts of one grammar: compact, with no blanks at all, and indented, with
one item or member a line and empty containers closed at once.

Main definitions:

* `quote` — a string with the escapes that the grammar demands and no others.
* `Value.compact`, `Value.indented`.
-/

namespace Shapewright.Json

/-- A lower-case hexadecimal digit. -/
def hexDigit (n : Nat) : Char := Nat.digitChar n

/-- How a character stands between quotes. -/
def escapeChar (c : Char) : List Char :=
  if c = '"' then ['\\', '"']
  else if c = '\\' then ['\\', '\\']
  else if c = '\x08' then ['\\', 'b']
  else if c = '\x0c' then ['\\', 'f']
  else if c = '\n' then ['\\', 'n']
  else if c = '\r' then ['\\', 'r']
  else if c = '\t' then ['\\', 't']
  else if c.toNat < 0x20 then
    ['\\', 'u', '0', '0', hexDigit (c.toNat / 16), hexDigit (c.toNat % 16)]
  else [c]

def quote (s : String) : String :=
  String.ofList ('"' :: s.toList.flatMap escapeChar ++ ['"'])

namespace Value

mutual

/-- The document on one line without blanks. -/
def compact : Value → String
  | .null => "null"
  | .boolean b => if b then "true" else "false"
  | .number n => n.toText
  | .string s => quote s
  | .array items => "[" ++ compactItems items ++ "]"
  | .object members => "\x7b" ++ compactMembers members ++ "\x7d"

def compactItems : List Value → String
  | [] => ""
  | [v] => compact v
  | v :: rest => compact v ++ "," ++ compactItems rest

def compactMembers : List (String × Value) → String
  | [] => ""
  | [(name, v)] => quote name ++ ":" ++ compact v
  | (name, v) :: rest => quote name ++ ":" ++ compact v ++ "," ++ compactMembers rest

end

/-- A line feed and the indentation of the given level. -/
def newline (level : Nat) : String :=
  "\n" ++ String.ofList (List.replicate (2 * level) ' ')

mutual

/-- The document with one item or member a line; its own first line is not indented. -/
def indentedAt (level : Nat) : Value → String
  | .array [] => "[]"
  | .array items => "[" ++ indentedItems level items ++ newline level ++ "]"
  | .object [] => "\x7b\x7d"
  | .object members => "\x7b" ++ indentedMembers level members ++ newline level ++ "\x7d"
  | .null => "null"
  | .boolean b => if b then "true" else "false"
  | .number n => n.toText
  | .string s => quote s

def indentedItems (level : Nat) : List Value → String
  | [] => ""
  | [v] => newline (level + 1) ++ indentedAt (level + 1) v
  | v :: rest =>
    newline (level + 1) ++ indentedAt (level + 1) v ++ "," ++ indentedItems level rest

def indentedMembers (level : Nat) : List (String × Value) → String
  | [] => ""
  | [(name, v)] => newline (level + 1) ++ quote name ++ ": " ++ indentedAt (level + 1) v
  | (name, v) :: rest =>
    newline (level + 1) ++ quote name ++ ": " ++ indentedAt (level + 1) v ++ "," ++
      indentedMembers level rest

end

def indented (v : Value) : String := v.indentedAt 0

end Value
end Shapewright.Json
