/-!
# Quoting

How arbitrary text stands between double quotes in the declarations written.

Main definitions:

* `Text.escapeQuotes` — a backslash before quotes and backslashes.
* `Text.escapeAscii` — printable ASCII only, everything else by its code point.
-/

namespace Shapewright.Text

/-- Put a backslash before each of the given characters. -/
def escapeWith (special : List Char) (cs : List Char) : List Char :=
  cs.flatMap fun c => if c ∈ special then ['\\', c] else [c]

def escapeQuotes (s : String) : String := String.ofList (escapeWith ['\\', '"'] s.toList)

/-- The code point in lower-case hexadecimal without leading zeros. -/
def codePoint (c : Char) : List Char := Nat.toDigits 16 c.toNat

/-- A character as an escape that names its code point. -/
def codePointEscape (c : Char) : List Char := ['\\', 'u', '\x7b'] ++ codePoint c ++ ['\x7d']

/-- One character in printable ASCII. -/
def asciiChar (c : Char) : List Char :=
  if c = '\t' then ['\\', 't']
  else if c = '\r' then ['\\', 'r']
  else if c = '\n' then ['\\', 'n']
  else if c = '\'' then ['\\', '\'']
  else if c = '"' then ['\\', '"']
  else if c = '\\' then ['\\', '\\']
  else if 0x20 ≤ c.toNat ∧ c.toNat ≤ 0x7e then [c]
  else codePointEscape c

def escapeAscii (s : String) : String := String.ofList (s.toList.flatMap asciiChar)

end Shapewright.Text
