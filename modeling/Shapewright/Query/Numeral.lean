import Shapewright.Number.Extended
import Shapewright.Json.Value

/-!
# Numbers of queries

Filters compute with words of 64 bits, which wrap around, and with reals. A
number that is neither a word nor the result of a computation stays the text
that it is written as, and becomes the real nearest to that text only where it
is computed with.

Main definitions:

* `Numeral` — the three kinds of numbers.
* `Numeral.toText` — how a number is written. There is no text for infinite and
  undefined reals.
* `Numeral.add`, `Numeral.sub`, `Numeral.neg`, `Numeral.magnitude` — words with
  words, and reals otherwise.
* `Numeral.cmp` — the order.
-/

namespace Shapewright.Query

/-- A number of a query. -/
inductive Numeral where
  | word (value : Int64)
  | real (value : Extended)
  | written (text : String)
  deriving Repr, DecidableEq, Inhabited

namespace Numeral

/-! ## Reading -/

/-- The natural number that digits are. -/
def natural (digits : List Char) : Nat :=
  digits.foldl (fun n c => 10 * n + (c.toNat - '0'.toNat)) 0

/-- The power of ten that a sign and digits are. -/
def power : List Char → Int
  | '-' :: digits => -(natural digits : Int)
  | '+' :: digits => natural digits
  | digits => natural digits

/-- The decimal that digits are, with a fraction and an exponent where they are there. -/
def decimal (cs : List Char) : Decimal :=
  let whole := cs.takeWhile Char.isDigit
  let (fraction, behind) :=
    match cs.drop whole.length with
    | '.' :: rest => (rest.takeWhile Char.isDigit, rest.dropWhile Char.isDigit)
    | rest => ([], rest)
  ⟨natural (whole ++ fraction), power (behind.drop 1) - fraction.length⟩

/-- The real nearest to a text. -/
def nearest (text : String) : Extended :=
  match text.toList with
  | '-' :: cs => .ofDecimal true (decimal cs)
  | cs => .ofDecimal false (decimal cs)

/-- The words among the integers. -/
def word? (n : Int) : Option Int64 :=
  if Int64.minValue.toInt ≤ n ∧ n ≤ Int64.maxValue.toInt then some (.ofInt n) else none

/-- The number of a document. -/
def ofNumber : Json.Number → Numeral
  | .integer n => ((word? n).map .word).getD (.written (toString n))
  | .real x => .written x.toText

/-- The number that digits are, with a fraction and an exponent where they are there. -/
def ofDigits (cs : List Char) : Numeral :=
  let whole := if cs.all Char.isDigit then word? (natural cs) else none
  (whole.map .word).getD (.written (String.ofList cs))

/-! ## Writing -/

/-- The text of a number, if there is one. -/
def toText? : Numeral → Option String
  | .word n => some (toString n.toInt)
  | .real (.finite x) => some x.toText
  | .real _ => none
  | .written text => some text

/-! ## Computing -/

/-- A number as a real. -/
def toReal : Numeral → Extended
  | .word n => .ofInt n.toInt
  | .real x => x
  | .written text => nearest text

def add : Numeral → Numeral → Numeral
  | .word m, .word n => .word (m + n)
  | x, y => .real (x.toReal.add y.toReal)

def sub : Numeral → Numeral → Numeral
  | .word m, .word n => .word (m - n)
  | x, y => .real (x.toReal.sub y.toReal)

def neg : Numeral → Numeral
  | .word n => .word (-n)
  | x => .real x.toReal.neg

/-- The number without its sign. The least word has no positive partner and stays. -/
def magnitude : Numeral → Numeral
  | .word n => .word (if n < 0 then -n else n)
  | x => .real x.toReal.magnitude

def cmp : Numeral → Numeral → Ordering
  | .word m, .word n => compare m.toInt n.toInt
  | x, y => x.toReal.cmp y.toReal

end Numeral
end Shapewright.Query
