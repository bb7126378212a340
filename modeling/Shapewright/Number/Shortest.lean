import Shapewright.Number.Binary64

/-!
# Shortest decimal text of a number

A nonzero binary64 number is written with the fewest decimal digits that read
back as the same number: of all decimals inside the interval that rounds to it,
one on the coarsest decimal grid, and the nearest of those.

Main definitions:

* `Binary64.shortest` — coefficient and power of ten of that decimal.
* `Binary64.toText` — its text: positional while the point stands near the
  digits, with an exponent otherwise, and always recognisable as a real number.
-/

namespace Shapewright

/-- The decimal number `coefficient * 10^exponent`. -/
structure Decimal where
  coefficient : Nat
  exponent : Int
  deriving Repr, DecidableEq, Inhabited

namespace Decimal

/-- The decimal digits of a natural number, most significant first. -/
def digits (n : Nat) : List Char := Nat.toDigits 10 n

/-- Drop trailing zeros of the coefficient, at most `fuel` of them. -/
def trim : Nat → Decimal → Decimal
  | 0, d => d
  | fuel + 1, d =>
    if d.coefficient % 10 = 0 ∧ d.coefficient ≠ 0 then
      trim fuel ⟨d.coefficient / 10, d.exponent + 1⟩
    else d

end Decimal

namespace Binary64

/-- Number of digits before the decimal point of `num / den`; for a quotient
below one, minus the number of zeros that follow the point. -/
def decimalPoint (num den : Nat) : Int :=
  if den ≤ num then ((Decimal.digits (num / den)).length : Int)
  else
    -- the first power of ten that lifts the quotient to at least one
    let lift := (List.range 400).find? fun j => den ≤ num * Nat.pow 10 (j + 1)
    Int.negOfNat (lift.getD 400)

/-- The reals that round to a number, in quarters of its last place: between
`low` and `high` around `center`, ends included when `closed`. One quarter is
`2^(exponent - 2)`. -/
structure Rounding where
  center : Nat
  low : Nat
  high : Nat
  closed : Bool

/-- Below a power of two the neighbouring number is only half as far away. -/
def rounding (x : Binary64) : Rounding :=
  let nearBelow := x.mantissa = Nat.pow 2 (precision - 1) ∧ minExponent < x.exponent
  { center := 4 * x.mantissa
    low := 4 * x.mantissa - (if nearBelow then 1 else 2)
    high := 4 * x.mantissa + 2
    closed := x.mantissa % 2 == 0 }

/-- The nearest point of the grid of multiples of `10^grid` that rounds to `x`, if any does. -/
def onGrid? (x : Binary64) (grid : Int) : Option Decimal :=
  let r := x.rounding
  let quarter := x.exponent - 2
  -- `c * 10^grid` against `q` quarters is `c * ten` against `q * two`
  let ten := Nat.pow 10 grid.toNat * Nat.pow 2 (-quarter).toNat
  let two := Nat.pow 10 (-grid).toNat * Nat.pow 2 quarter.toNat
  let below := r.center * two / ten
  let above := below + 1
  let inside (c : Nat) : Bool :=
    (r.low * two < c * ten || (r.closed && r.low * two == c * ten)) &&
      (c * ten < r.high * two || (r.closed && r.high * two == c * ten))
  let gapBelow := r.center * two - below * ten
  let gapAbove := above * ten - r.center * two
  let aboveIsNearer := gapAbove < gapBelow || (gapAbove == gapBelow && below % 2 == 1)
  match inside below, inside above with
  | true, true => some ⟨if aboveIsNearer then above else below, grid⟩
  | true, false => some ⟨below, grid⟩
  | false, true => some ⟨above, grid⟩
  | false, false => none

/-- Most decimal digits that any number needs. -/
def maxDigits : Nat := 17

/-- The shortest decimal that rounds to `x`, without trailing zeros. -/
def shortest (x : Binary64) : Decimal :=
  let point := decimalPoint x.numerator x.denominator
  let found := (List.range maxDigits).findSome? fun n => x.onGrid? (point - ((n + 1 : Nat) : Int))
  Decimal.trim maxDigits (found.getD ⟨0, 0⟩)

/-- The power of ten of scientific text, which is always signed. -/
def powerText (power : Int) : List Char :=
  (if power < 0 then '-' else '+') :: Decimal.digits power.natAbs

/-- Lay out digits with the point after the first `point` of them: positional
for points from four zeros ahead of the digits up to sixteen places, scientific
outside that range. -/
def layout (digits : List Char) (point : Int) : List Char :=
  let count : Int := digits.length
  if count ≤ point ∧ point ≤ 16 then
    digits ++ List.replicate (point - count).toNat '0' ++ ['.', '0']
  else if 0 < point ∧ point ≤ 16 then
    digits.take point.toNat ++ '.' :: digits.drop point.toNat
  else if -5 < point ∧ point ≤ 0 then
    '0' :: '.' :: List.replicate (-point).toNat '0' ++ digits
  else
    let power := powerText (point - 1)
    match digits with
    | [] => []
    | [d] => d :: 'e' :: power
    | d :: rest => d :: '.' :: rest ++ 'e' :: power

/-- The text of a real number in a document. -/
def toText (x : Binary64) : String :=
  let magnitude :=
    if x.isZero then ['0', '.', '0']
    else
      let d := x.shortest
      let digits := Decimal.digits d.coefficient
      layout digits (digits.length + d.exponent)
  String.ofList (if x.negative then '-' :: magnitude else magnitude)

end Binary64
end Shapewright
